import Descent.Parse
import Descent.Proofs.Recognition

/-!
# What the two modes accept

Both modes read an expression at the start of the text, and differ only in what they make of the
text behind it. Strict mode accepts the texts that are written forms of an expression, each as that
expression (`parseWith_strict_ok`). Lenient mode accepts the texts that begin with such a text, and
it is only when more follows that the modes disagree (`parseWith_modes`).
-/

namespace Descent

open Descent.Grammar Descent.Cursor

variable {text : String} {D : Nat} {e : Expression}

/-! ## From the grammar to the modes -/

theorem parseWith_of_error {mode : Mode} {f : Failure}
    (h : (expression (atStart text D)).result = .error f) :
    (parseWith { mode := mode, maxDepth := D } text).result = .error (.ofFailure text f) := by
  simp only [parseWith, h]

theorem parseWith_of_atEnd {mode : Mode} {c : Cursor}
    (h : (expression (atStart text D)).result = .ok (e, c)) (hc : c.ahead = []) :
    (parseWith { mode := mode, maxDepth := D } text).result = .ok e := by
  simp only [parseWith, h, Parse.settle, atEnd, hc, List.isEmpty_nil, if_true]

theorem parseWith_lenient_of_ok {c : Cursor}
    (h : (expression (atStart text D)).result = .ok (e, c)) :
    (parseWith { mode := .lenient, maxDepth := D } text).result = .ok e := by
  by_cases hc : c.ahead = []
  · exact parseWith_of_atEnd h hc
  · have hend : c.atEnd = false := by simp [atEnd, hc]
    simp only [parseWith, h, Parse.settle, hend, Bool.false_eq_true, if_false]

theorem parseWith_strict_of_rest {c : Cursor}
    (h : (expression (atStart text D)).result = .ok (e, c)) (hc : c.ahead ≠ []) :
    (parseWith { mode := .strict, maxDepth := D } text).result =
      .error (.ofFailure text { expected := "end of input", position := c.position }) := by
  have hend : c.atEnd = false := by simp [atEnd, hc]
  simp only [parseWith, h, Parse.settle, hend, Bool.false_eq_true, if_false]

theorem expression_of_lenient
    (h : (parseWith { mode := .lenient, maxDepth := D } text).result = .ok e) :
    ∃ c, (expression (atStart text D)).result = .ok (e, c) := by
  cases hr : (expression (atStart text D)).result with
  | error f =>
    rw [parseWith_of_error hr] at h
    cases h
  | ok found =>
    obtain ⟨e', c⟩ := found
    rw [parseWith_lenient_of_ok hr] at h
    cases h
    exact ⟨c, rfl⟩

theorem expression_of_strict
    (h : (parseWith { mode := .strict, maxDepth := D } text).result = .ok e) :
    ∃ c, (expression (atStart text D)).result = .ok (e, c) ∧ c.ahead = [] := by
  cases hr : (expression (atStart text D)).result with
  | error f =>
    rw [parseWith_of_error hr] at h
    cases h
  | ok found =>
    obtain ⟨e', c⟩ := found
    by_cases hc : c.ahead = []
    · rw [parseWith_of_atEnd hr hc] at h
      cases h
      exact ⟨c, rfl, hc⟩
    · rw [parseWith_strict_of_rest hr hc] at h
      cases h

/-! ## Strict mode -/

theorem derives_of_strict
    (h : (parseWith { mode := .strict, maxDepth := D } text).result = .ok e) :
    Derives D text.toList e := by
  obtain ⟨c, hr, hc⟩ := expression_of_strict h
  obtain ⟨word, hw, hd, -⟩ := expression_ok.1 hr
  have htext : text.toList = word := by
    have := hw.ahead_eq
    rwa [hc, List.append_nil] at this
  rw [htext]
  exact hd

/-- A written form at the start of a text is read up to its end. -/
theorem expression_of_derives {word rest : List Char} (htext : text.toList = word ++ rest)
    (h : Derives D word e) (hends : EndsBefore e rest) :
    ∃ c, (expression (atStart text D)).result = .ok (e, c) ∧ Between (atStart text D) word c ∧
      c.ahead = rest := by
  have hw : Between (atStart text D) word _ := between_of_eq_append htext
  have hrest : ((atStart text D).forward word.length).ahead = rest := by
    rw [ahead_forward, show (atStart text D).ahead = text.toList from rfl, htext, List.drop_left]
  refine ⟨_, expression_ok.2 ⟨word, hw, h, ?_⟩, hw, hrest⟩
  rw [hrest]
  exact hends

theorem strict_of_derives (h : Derives D text.toList e) :
    (parseWith { mode := .strict, maxDepth := D } text).result = .ok e := by
  obtain ⟨c, hr, -, hc⟩ := expression_of_derives (List.append_nil _).symm h (endsBefore_nil e)
  exact parseWith_of_atEnd hr hc

/-- **Strict mode accepts the written forms of expressions, each as what it is a form of.** -/
theorem parseWith_strict_ok (text : String) (D : Nat) (e : Expression) :
    (parseWith { mode := .strict, maxDepth := D } text).result = .ok e ↔
      Derives D text.toList e := by
  constructor
  · exact derives_of_strict
  · exact strict_of_derives

/-! ## Lenient mode -/

theorem derives_of_lenient
    (h : (parseWith { mode := .lenient, maxDepth := D } text).result = .ok e) :
    ∃ word rest, text.toList = word ++ rest ∧ Derives D word e ∧ EndsBefore e rest := by
  obtain ⟨c, hr⟩ := expression_of_lenient h
  obtain ⟨word, hw, hd, hends⟩ := expression_ok.1 hr
  exact ⟨word, c.ahead, hw.ahead_eq, hd, hends⟩

theorem lenient_ok_iff_prefix :
    (parseWith { mode := .lenient, maxDepth := D } text).result = .ok e ↔
      ∃ s t, text = s ++ t ∧ (parseWith { mode := .strict, maxDepth := D } s).result = .ok e ∧
        EndsBefore e t.toList := by
  constructor
  · intro h
    obtain ⟨word, rest, htext, hd, hends⟩ := derives_of_lenient h
    refine ⟨String.ofList word, String.ofList rest, ?_, strict_of_derives ?_, ?_⟩
    · rw [← String.ofList_append, ← htext]
      exact String.ofList_toList.symm
    · rw [String.toList_ofList]
      exact hd
    · rw [String.toList_ofList]
      exact hends
  · rintro ⟨s, t, rfl, hs, hends⟩
    obtain ⟨c, hr, -⟩ :=
      expression_of_derives String.toList_append (derives_of_strict hs) hends
    exact parseWith_lenient_of_ok hr

/-- Strict mode on a text whose start `s` it accepts. -/
theorem strict_of_prefix {s t : String}
    (hs : (parseWith { mode := .strict, maxDepth := D } s).result = .ok e)
    (hends : EndsBefore e t.toList) (ht : t ≠ "") :
    ∃ d, (parseWith { mode := .strict, maxDepth := D } (s ++ t)).result = .error d ∧
      d.expected = "end of input" ∧ d.offset = s.utf8ByteSize := by
  obtain ⟨c, hr, hw, hc⟩ :=
    expression_of_derives String.toList_append (derives_of_strict hs) hends
  have hne : c.ahead ≠ [] := by
    rw [hc]
    exact fun h => ht (String.toList_eq_nil_iff.1 h)
  have hpos : c.position = Text.byteLength s.toList := by
    rw [hw.position_eq]
    exact Nat.zero_add _
  refine ⟨_, parseWith_strict_of_rest hr hne, rfl, ?_⟩
  rw [hpos, ← Text.byteLength_toList]
  exact Location.position_ofOffset String.toList_append

/-- **Lenient mode accepts what begins with a text that strict mode accepts, provided that what
follows does not prolong it. Strict mode then refuses just what follows, and a text that lenient
mode refuses it refuses for the same reason.** -/
theorem parseWith_modes (text : String) (D : Nat) :
    (∀ e, (parseWith { mode := .lenient, maxDepth := D } text).result = .ok e ↔
      ∃ s t, text = s ++ t ∧ (parseWith { mode := .strict, maxDepth := D } s).result = .ok e ∧
        EndsBefore e t.toList) ∧
    (∀ e s t, text = s ++ t → (parseWith { mode := .strict, maxDepth := D } s).result = .ok e →
      EndsBefore e t.toList →
        (t = "" → (parseWith { mode := .strict, maxDepth := D } text).result = .ok e) ∧
        (t ≠ "" → ∃ d, (parseWith { mode := .strict, maxDepth := D } text).result = .error d ∧
          d.expected = "end of input" ∧ d.offset = s.utf8ByteSize)) ∧
    (∀ d, (parseWith { mode := .lenient, maxDepth := D } text).result = .error d →
      (parseWith { mode := .strict, maxDepth := D } text).result = .error d) := by
  refine ⟨fun e => lenient_ok_iff_prefix, ?_, ?_⟩
  · rintro e s t rfl hs hends
    refine ⟨?_, fun ht => strict_of_prefix hs hends ht⟩
    rintro rfl
    rwa [String.append_empty]
  · intro d h
    cases hr : (expression (atStart text D)).result with
    | error f =>
      rw [parseWith_of_error hr] at h ⊢
      exact h
    | ok found =>
      rw [parseWith_lenient_of_ok hr] at h
      cases h

/-- A number with more behind it, and a text that neither mode accepts. -/
theorem parseWith_modes_semicolon :
    ((parseWith { mode := .strict, maxDepth := 0 } "1").result = .ok (.number 1) ∧
      EndsBefore (.number 1) ";".toList ∧
      ∃ d, (parseWith { mode := .strict, maxDepth := 0 } "1;").result = .error d ∧
        d.expected = "end of input" ∧ d.offset = 1) ∧
    ∃ d, (parseWith { mode := .lenient, maxDepth := 0 } ";").result = .error d ∧
      (parseWith { mode := .strict, maxDepth := 0 } ";").result = .error d := by
  have hs : (parseWith { mode := .strict, maxDepth := 0 } "1").result = .ok (.number 1) :=
    strict_of_derives
      (@Derives.number 0 [] ['1'] ⟨by decide, by decide, by simp⟩ (by decide) (by decide))
  have hends : EndsBefore (.number 1) ";".toList := endsBefore_cons _ [] (by decide) (by decide)
  have herror : (parseWith { mode := .lenient, maxDepth := 0 } ";").result = .error _ :=
    parseWith_of_error (by
      rw [expression_eq, expressionOf_of_nothing (by decide) (stops_cons.2 (by decide))]
      rfl)
  refine ⟨⟨hs, hends, ?_⟩, _, herror, (parseWith_modes ";" 0).2.2 _ herror⟩
  exact ((parseWith_modes "1;" 0).2.1 (.number 1) "1" ";" (by decide) hs hends).2 (by decide)

end Descent
