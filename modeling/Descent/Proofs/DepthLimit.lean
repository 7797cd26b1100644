import Descent.Proofs.Modes
import Descent.Proofs.Portable
import Descent.Proofs.Unfinished

/-!
# The depth limit only cuts

A fatal failure of the grammar is always that of the depth limit (`limit_of_fatal`): nothing but
a call at the limit fails fatally, and lists and choices hand the failure on. Hence a parse that does
not end at the limit comes to the same under every higher one, since nothing that it did depended on
the limit. The expressions for which a limit is too low are those that nest deeper, as only their
written forms need more levels (`parseWith_depth`).
-/

namespace Descent

open Descent.Grammar Descent.Parser Descent.Cursor

/-! ## Higher limits -/

/-- The parse ended where its depth limit was reached. -/
def TooDeep (D : Nat) (r : Except Diagnostic Expression) : Prop :=
  ∃ d, r = .error d ∧ d.expected = "nesting depth of at most " ++ toString D

variable {text : String} {mode : Mode} {D : Nat}

/-- Under a higher limit the grammar does the same, unless it ended at the lower one. -/
theorem expression_of_higher_limit (text : String) (D extra : Nat) :
    (∃ f, (expression (atStart text D)).result = .error f ∧ f.fatal = true) ∨
      (expression (atStart text (D + extra))).result =
        Outcome.elsewhere [] extra (expression (atStart text D)).result := by
  rcases portable_expression (atStart text D) with ⟨-, hcut⟩ | h
  · exact .inl hcut
  · exact .inr h

theorem tooDeep_of_fatal (mode : Mode) {f : Failure}
    (h : (expression (atStart text D)).result = .error f) (hf : f.fatal = true) :
    TooDeep D (parseWith { mode := mode, maxDepth := D } text).result := by
  have hlimit : f.expected = "nesting depth of at most " ++ toString (atStart text D).maxDepth :=
    (limit_of_fatal h hf).1
  rw [parseWith_of_error h]
  exact ⟨.ofFailure text f, rfl, hlimit⟩

/-- The limit matters to the outcome only as far as it matters to the expression. -/
theorem parseWith_of_elsewhere (mode : Mode) {extra : Nat}
    (h : (expression (atStart text (D + extra))).result =
      Outcome.elsewhere [] extra (expression (atStart text D)).result) :
    (parseWith { mode := mode, maxDepth := D + extra } text).result =
      (parseWith { mode := mode, maxDepth := D } text).result := by
  cases hr : (expression (atStart text D)).result with
  | error f =>
    rw [hr] at h
    rw [parseWith_of_error hr]
    exact parseWith_of_error h
  | ok found =>
    obtain ⟨e, c⟩ := found
    rw [hr] at h
    by_cases hc : c.ahead = []
    · rw [parseWith_of_atEnd hr hc]
      exact parseWith_of_atEnd h hc
    · cases mode with
      | lenient =>
        rw [parseWith_lenient_of_ok hr]
        exact parseWith_lenient_of_ok h
      | strict =>
        rw [parseWith_strict_of_rest hr hc, parseWith_strict_of_rest h hc]
        simp

/-- What either mode accepts starts with a written form. -/
theorem derives_of_ok {e : Expression}
    (h : (parseWith { mode := mode, maxDepth := D } text).result = .ok e) :
    ∃ word rest, text.toList = word ++ rest ∧ Derives D word e ∧ EndsBefore e rest := by
  cases mode with
  | lenient => exact derives_of_lenient h
  | strict => exact ⟨text.toList, [], (List.append_nil _).symm, derives_of_strict h, endsBefore_nil e⟩

/-- **A parse that does not end at the depth limit comes to the same under every higher limit, and
an expression that a higher limit lets through is refused by the lower one just if it nests
deeper.** -/
theorem parseWith_depth (text : String) (mode : Mode) {D D' : Nat} (h : D ≤ D') :
    (¬ TooDeep D (parseWith { mode := mode, maxDepth := D } text).result →
      (parseWith { mode := mode, maxDepth := D' } text).result =
        (parseWith { mode := mode, maxDepth := D } text).result) ∧
    ∀ e, (parseWith { mode := mode, maxDepth := D' } text).result = .ok e →
      (e.callDepth ≤ D → (parseWith { mode := mode, maxDepth := D } text).result = .ok e) ∧
      (D < e.callDepth → TooDeep D (parseWith { mode := mode, maxDepth := D } text).result) := by
  obtain ⟨extra, rfl⟩ := Nat.exists_eq_add_of_le h
  rcases expression_of_higher_limit text D extra with ⟨f, hf, hfatal⟩ | hsame
  · have htooDeep := tooDeep_of_fatal mode hf hfatal
    refine ⟨fun hnot => absurd htooDeep hnot, fun e he => ⟨fun hdepth => ?_, fun _ => htooDeep⟩⟩
    -- with room enough for the expression, the lower limit is not reached
    obtain ⟨word, rest, htext, hd, hends⟩ := derives_of_ok he
    obtain ⟨c, hc, -⟩ := expression_of_derives htext (hd.of_callDepth_le hdepth) hends
    rw [hf] at hc
    cases hc
  · have heq := parseWith_of_elsewhere mode hsame
    refine ⟨fun _ => heq, fun e he => ?_⟩
    rw [heq] at he
    obtain ⟨word, rest, -, hd, -⟩ := derives_of_ok he
    have hle := hd.callDepth_le
    exact ⟨fun _ => he, fun hlt => absurd hlt (Nat.not_lt.2 hle)⟩

/-- A call without arguments needs one level. -/
theorem parseWith_depth_call :
    (0 ≤ 1 ∧ (parseWith { mode := .strict, maxDepth := 1 } "f()").result = .ok (.call "f" []) ∧
      0 < (Expression.call "f" []).callDepth ∧
      TooDeep 0 (parseWith { mode := .strict, maxDepth := 0 } "f()").result) ∧
    (1 ≤ 2 ∧ ¬ TooDeep 1 (parseWith { mode := .strict, maxDepth := 1 } "f()").result ∧
      (parseWith { mode := .strict, maxDepth := 2 } "f()").result =
        (parseWith { mode := .strict, maxDepth := 1 } "f()").result) := by
  have hok : (parseWith { mode := .strict, maxDepth := 1 } "f()").result = .ok (.call "f" []) :=
    strict_of_derives (@Derives.call 0 ['f'] [] ⟨by decide, fun _ h => nomatch h⟩ (by decide)
      fun _ h => nomatch h)
  have hnot : ¬ TooDeep 1 (parseWith { mode := .strict, maxDepth := 1 } "f()").result := by
    rw [hok]
    rintro ⟨d, hd, -⟩
    cases hd
  have hdeep : 0 < (Expression.call "f" []).callDepth := by decide
  refine ⟨⟨by decide, hok, hdeep, ?_⟩, by decide, hnot, ?_⟩
  · exact ((parseWith_depth "f()" .strict (by decide)).2 _ hok).2 hdeep
  · exact (parseWith_depth "f()" .strict (by decide)).1 hnot

end Descent
