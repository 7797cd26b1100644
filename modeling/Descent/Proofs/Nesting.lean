import Mathlib.Data.List.Infix
import Descent.Proofs.DepthLimit
import Descent.Proofs.Placement
import Descent.Proofs.Refusal

/-!
# When the depth limit is reported

The depth limit is looked at behind the name of a call, before its opening bracket is looked for. It is
reported just when a text begins as many calls as the limit allows, each inside the one before, and then
goes on with one more name (`limit_iff`). Whether a bracket follows that name does not matter, so a text
can be too deep that never opens more brackets at once than the limit allows. In such a text that last
name stands without a bracket, and if there is none, no higher limit changes the outcome
(`limit_of_shallow`).
-/

namespace Descent

open Descent.Grammar Descent.Parser Descent.Cursor

/-! ## Beginnings of calls are read up to the limit -/

namespace Grammar

variable {c d : Cursor} {f : Failure} {written : List (List Char × Expression)}

/-- Arguments with a comma behind each are read one after the other, up to one that fails fatally. -/
theorem separatedList_of_fatal_argument (ha : ∀ a ∈ written, Derives (room c) a.1 a.2)
    (hw : Between c ((written.map Prod.fst).flatMap (· ++ [','])) d)
    (hd : (expression d).result = .error f) (hf : f.fatal = true) :
    (separatedList (literal ",") expression c).result = .error f := by
  cases written with
  | nil =>
    rw [hw.eq_forward] at hd
    exact separatedList_of_fatal hd hf
  | cons a written =>
    have hread : ∀ b ∈ a :: written, ReadAs (room c) b.1 b.2 := fun b hb => readAs_of_derives (ha b hb)
    obtain ⟨ha, hothers⟩ := List.forall_mem_cons.1 hread
    rw [List.map_cons, ← append_flatMap_comma] at hw
    -- the arguments end before the last comma, and behind it the loop fails
    obtain ⟨hargs, hcomma⟩ := hw.split
    have hhead := singleton_isPrefix.1 ⟨_, hcomma.ahead_eq.symm⟩
    rw [hcomma.eq_forward] at hd
    obtain ⟨he, hrest⟩ := argument_of_readAs ha hargs rfl (.inl hhead)
    have hrounds := rounds_of_readAs hothers hrest rfl (.inl hhead)
    have hconsumes := sound_expression.consumes.followedBy (shrinks_literal ",")
    rw [separatedList_of_ok (onward_literal ",") advances_expression.onward he
      (sound_expression.consumes _ _ _ he)]
    exact Run.map_error.2
      (many_of_rounds_fatal hconsumes hrounds (followedBy_comma_error.2 (.inr ⟨hhead, hd⟩)) hf)

theorem expression_of_tooDeep {name rest : List Char} (h : NameAhead c.ahead name rest)
    (hd : c.maxDepth ≤ c.depth) :
    (expression c).result = .error
      { expected := "nesting depth of at most " ++ toString c.maxDepth
        position := (c.forward name.length).position
        fatal := true } := by
  rw [expression_eq, expressionOf_of_call_fatal h.not_keyword (number_of_none h.numeral_eq_none) rfl
    (callOf_tooDeep h hd) rfl]

/-- A call fails fatally by an argument that does, behind complete arguments with a comma each. -/
theorem expression_of_fatal_argument {name behind : List Char} (hn : IsName name)
    (hk : ∀ b, ¬ keyword b <+: name) (hc : c.ahead = name ++ '(' :: behind)
    (hlimit : c.depth < c.maxDepth)
    (ha : ∀ a ∈ written, Derives (room (argumentsAt c name)) a.1 a.2)
    (hw : Between (argumentsAt c name) ((written.map Prod.fst).flatMap (· ++ [','])) d)
    (hd : (expression d).result = .error f) (hf : f.fatal = true) :
    (expression c).result = .error f := by
  have hname : NameAhead c.ahead name ('(' :: behind) := by
    rw [hc]
    exact nameAhead_append hn hk (stops_cons.2 (by decide))
  have hlist : (arguments expression c name).result = .error f :=
    separatedList_of_fatal_argument ha hw hd hf
  rw [expression_eq, expressionOf_of_call_fatal hname.not_keyword
    (number_of_none hname.numeral_eq_none) rfl (callOf_fatal hname hlimit rfl hlist) hf]

/-- A name at the limit fails fatally, and so does every call that is begun before it. -/
theorem fatal_of_unfinished {begun name rest : List Char} (h : Unfinished (room c) begun)
    (hc : c.ahead = begun ++ (name ++ rest)) (hn : NameAhead (name ++ rest) name rest) :
    ∃ f, (expression c).result = .error f ∧ f.fatal = true ∧
      f.position = c.position + Text.byteLength (begun ++ name) := by
  generalize hroom : room c = n at h
  induction h generalizing c with
  | nil =>
    rw [List.nil_append] at hc
    have hd : c.maxDepth ≤ c.depth := Nat.sub_eq_zero_iff_le.1 hroom
    rw [← hc] at hn
    exact ⟨_, expression_of_tooDeep hn hd, rfl, (between_of_eq_append hc).position_eq⟩
  | @call n word inner written hw hk ha h ih =>
    -- at the last argument one call fewer is begun, and there is room for one fewer
    let arguments := (written.map Prod.fst).flatMap (· ++ [','])
    have hahead : c.ahead = word ++ '(' :: (arguments ++ (inner ++ (name ++ rest))) := by
      rw [hc]
      simp [arguments]
    have hlimit : c.depth < c.maxDepth := by
      unfold room at hroom
      omega
    have hroom' : room (argumentsAt c word) = n := by
      have := room_argumentsAt word hlimit
      omega
    have hw' := between_of_eq_append (ahead_argumentsAt hahead)
    have hinner : ((argumentsAt c word).forward arguments.length).ahead =
        inner ++ (name ++ rest) := by
      rw [ahead_forward, ahead_argumentsAt hahead, List.drop_left]
    obtain ⟨f, hf, hfatal, hposition⟩ := ih hinner hroom'
    refine ⟨f, expression_of_fatal_argument hw hk hahead hlimit (hroom' ▸ ha) hw' hf hfatal, hfatal, ?_⟩
    rw [hposition, hw'.position_eq, position_argumentsAt hahead]
    simp only [Text.byteLength_append, arguments]
    omega

/-- **An expression fails fatally just if one name more stands ahead than there is room for.** -/
theorem fatal_iff {n : Nat} :
    (∃ f, (expression c).result = .error f ∧ f.fatal = true ∧ f.position = c.position + n) ↔
      BeginsBeyond (room c) c.ahead n := by
  constructor
  · rintro ⟨f, h, hf, hposition⟩
    obtain ⟨-, m, hbegins, hm⟩ := limit_of_fatal h hf
    obtain rfl : n = m := by omega
    exact hbegins
  · rintro ⟨begun, name, rest, hahead, hbegun, hname, rfl⟩
    exact fatal_of_unfinished hbegun hahead hname

end Grammar

/-! ## Diagnostics of the limit -/

variable {text : String} {mode : Mode} {D : Nat}

theorem ne_limit {expected : String} (h : expected.toList.head? ≠ some 'n') (limit : String) :
    expected ≠ "nesting depth of at most " ++ limit := by
  rintro rfl
  rw [String.toList_append] at h
  exact h rfl

/-- No refusal tells of a limit. -/
theorem Grammar.Refusal.Tells.ne_limit {k : Refusal} {expected : String} (h : k.Tells expected)
    (limit : String) : expected ≠ "nesting depth of at most " ++ limit := by
  refine Descent.ne_limit ?_ limit
  cases k with
  | noExpression | fraction | noOpening | noClosing =>
    rw [show expected = _ from h]
    decide
  | outOfRange =>
    obtain ⟨tail, rfl⟩ := h
    rw [String.toList_append]
    exact fun hhead => absurd (Option.some.inj hhead) (by decide)

/-- The limit is reported for a fatal failure only, and at its place. -/
theorem fatal_of_limit {d : Diagnostic}
    (h : (parseWith { mode := mode, maxDepth := D } text).result = .error d)
    (hd : d.expected = "nesting depth of at most " ++ toString D) :
    ∃ f, (expression (atStart text D)).result = .error f ∧ f.fatal = true ∧ f.position = d.offset := by
  obtain ⟨f, hcause, rfl, -⟩ := cause_of_error h
  cases hcause with
  | trailing _ _ _ hf =>
    rw [hf] at hd
    have hend : "end of input".toList.head? ≠ some 'n' := by decide
    exact absurd hd (ne_limit hend _)
  | refused hf =>
    refine ⟨f, hf, ?_, (before_of_readUpTo (readUpTo_of_error hf)).2.1.symm⟩
    by_contra hordinary
    obtain ⟨k, -, htells⟩ := refusedAs_of_error hf (Bool.eq_false_iff.2 hordinary)
    exact htells.ne_limit _ hd

/-- **The limit is reported just if the text begins as many calls as it allows and goes on with one more
name, and it is reported behind that name.** -/
theorem limit_iff {n : Nat} :
    (∃ d, (parseWith { mode := mode, maxDepth := D } text).result = .error d ∧
        d.expected = "nesting depth of at most " ++ toString D ∧ d.offset = n) ↔
      BeginsBeyond D text.toList n := by
  have hiff := fatal_iff (c := atStart text D) (n := n)
  rw [show (atStart text D).position = 0 from rfl, Nat.zero_add] at hiff
  refine Iff.trans ⟨?_, ?_⟩ hiff
  · rintro ⟨d, h, hd, rfl⟩
    exact fatal_of_limit h hd
  · rintro ⟨f, hf, hfatal, rfl⟩
    obtain ⟨d, h, hd⟩ := tooDeep_of_fatal mode hf hfatal
    refine ⟨d, h, hd, ?_⟩
    rw [parseWith_of_error hf] at h
    cases h
    exact (before_of_readUpTo (readUpTo_of_error hf)).2.1

/-! ## Texts that are not too deep -/

/-- At no place in the text are more than `D` brackets open. -/
def Shallow (D : Nat) (text : List Char) : Prop := ∀ front, front <+: text → surplus front ≤ D

instance (D : Nat) (text : List Char) : Decidable (Shallow D text) :=
  decidable_of_iff (∀ front ∈ text.inits, surplus front ≤ D) (by simp only [List.mem_inits, Shallow])

/-- In such a text the last of the names has no bracket. -/
theorem Shallow.head?_ne {begun name rest : List Char} (h : Shallow D (begun ++ (name ++ rest)))
    (hbegun : Unfinished D begun) (hname : IsName name) : rest.head? ≠ some '(' := by
  intro hopening
  obtain ⟨tail, rfl⟩ := List.head?_eq_some_iff.1 hopening
  have hdeep : surplus (begun ++ (name ++ ['('])) = D + 1 := by
    rw [surplus_append, surplus_append, hbegun.surplus_eq, surplus_of_isNameChar hname.isNameChar]
    rfl
  have hle := h (begun ++ (name ++ ['('])) ⟨tail, by simp⟩
  omega

/-- **A text that never has more brackets open than the limit allows is reported to be too deep just if
as many are open before a name that has no bracket itself. Otherwise it comes to the same under every
higher limit.** -/
theorem limit_of_shallow (text : String) (mode : Mode) (D : Nat) (h : Shallow D text.toList) :
    (∀ n, (∃ d, (parseWith { mode := mode, maxDepth := D } text).result = .error d ∧
        d.expected = "nesting depth of at most " ++ toString D ∧ d.offset = n) ↔
      ∃ begun name rest, text.toList = begun ++ (name ++ rest) ∧ Unfinished D begun ∧
        surplus begun = D ∧ NameAhead (name ++ rest) name rest ∧ rest.head? ≠ some '(' ∧
        n = Text.byteLength (begun ++ name)) ∧
    (¬ TooDeep D (parseWith { mode := mode, maxDepth := D } text).result → ∀ D', D ≤ D' →
      (parseWith { mode := mode, maxDepth := D' } text).result =
        (parseWith { mode := mode, maxDepth := D } text).result) := by
  refine ⟨fun n => limit_iff.trans ⟨?_, ?_⟩, ?_⟩
  · rintro ⟨begun, name, rest, htext, hbegun, hname, hn⟩
    rw [htext] at h
    exact ⟨begun, name, rest, htext, hbegun, hbegun.surplus_eq, hname,
      h.head?_ne hbegun hname.isName, hn⟩
  · rintro ⟨begun, name, rest, htext, hbegun, -, hname, -, hn⟩
    exact ⟨begun, name, rest, htext, hbegun, hname, hn⟩
  · intro hnot D' hD
    obtain ⟨extra, rfl⟩ := Nat.exists_eq_add_of_le hD
    rcases expression_of_higher_limit text D extra with ⟨f, hf, hfatal⟩ | hsame
    · exact absurd (tooDeep_of_fatal mode hf hfatal) hnot
    · exact parseWith_of_elsewhere mode hsame

/-- One bracket is open before `x`, which has none, and a limit of one is too low nevertheless. -/
theorem limit_without_bracket :
    Shallow 1 "f(x)".toList ∧ ∃ d,
      (parseWith { mode := .lenient, maxDepth := 1 } "f(x)").result = .error d ∧
        d.expected = "nesting depth of at most 1" ∧ d.offset = 3 := by
  have hbegun : Unfinished 1 ['f', '('] :=
    @Unfinished.call 0 ['f'] [] [] ⟨by decide, by simp⟩ (by decide) (fun _ h => nomatch h) .nil
  have hname : NameAhead ['x', ')'] ['x'] [')'] :=
    ⟨⟨by decide, by simp⟩, by decide, stops_cons.2 (by decide), rfl⟩
  exact ⟨by decide, limit_iff.2 ⟨['f', '('], ['x'], [')'], rfl, hbegun, hname, rfl⟩⟩

/-- A second argument that is a name, and a call that keeps to the limit. -/
theorem limit_of_shallow_arguments :
    (Shallow 1 "g(1,x)".toList ∧ ∃ d,
      (parseWith { mode := .strict, maxDepth := 1 } "g(1,x)").result = .error d ∧
        d.expected = "nesting depth of at most 1" ∧ d.offset = 5) ∧
    Shallow 1 "f()".toList ∧ ¬ TooDeep 1 (parseWith { mode := .strict, maxDepth := 1 } "f()").result ∧
      (parseWith { mode := .strict, maxDepth := 7 } "f()").result =
        (parseWith { mode := .strict, maxDepth := 1 } "f()").result := by
  have hshallow : Shallow 1 "g(1,x)".toList := by decide
  have hone : Derives 0 ['1'] (.number 1) :=
    @Derives.number 0 [] ['1'] ⟨by decide, by decide, by simp⟩ (by decide) (by decide)
  have hbegun : Unfinished 1 ['g', '(', '1', ','] :=
    @Unfinished.call 0 ['g'] [] [(['1'], .number 1)] ⟨by decide, by simp⟩ (by decide)
      (by simpa using hone) .nil
  have hname : NameAhead ['x', ')'] ['x'] [')'] :=
    ⟨⟨by decide, by simp⟩, by decide, stops_cons.2 (by decide), rfl⟩
  have hcall : Derives 1 "f()".toList (.call "f" []) :=
    @Derives.call 0 ['f'] [] ⟨by decide, by simp⟩ (by decide) fun _ h => nomatch h
  have hnot : ¬ TooDeep 1 (parseWith { mode := .strict, maxDepth := 1 } "f()").result := by
    rw [strict_of_derives hcall]
    rintro ⟨d, hd, -⟩
    cases hd
  refine ⟨⟨hshallow, ?_⟩, by decide, hnot, ?_⟩
  · exact ((limit_of_shallow "g(1,x)" .strict 1 hshallow).1 5).2
      ⟨_, ['x'], [')'], rfl, hbegun, rfl, hname, by decide, rfl⟩
  · exact (limit_of_shallow "f()" .strict 1 (by decide)).2 hnot 7 (by decide)

end Descent
