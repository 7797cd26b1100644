import Descent.Proofs.Advance

/-!
# The grammar as an equation

A rule that refers to itself is guarded if it makes use of itself only where less text is ahead. Then
the parser that it defines is what the rule says (`fix_eq`), with no trace of how the recursion was set up.
The arguments of a call are read only behind its name, so the rule for expressions is guarded:
`expression_eq`.

`fix_induction` carries a property of runs through a guarded rule: it is enough that the rule hands it
on, and that a parser that always fails as `stuck` does has it.
-/

namespace Descent

namespace Parser

variable {α : Type} {rule : Parser α → Parser α}

/-- `rule` advances if its argument does, and makes use of it only where less text is ahead. -/
structure Guarded (rule : Parser α → Parser α) : Prop where
  advances {p : Parser α} (hp : Advances p) : Advances (rule p)
  congr {p q : Parser α} {c : Cursor} (hp : Advances p) (hq : Advances q)
    (h : ∀ c' : Cursor, c'.ahead.length < c.ahead.length → p c' = q c') : rule p c = rule q c

/-- The parser that `rule` defines where less text is ahead than at `c`, and `stuck` elsewhere. -/
def fixBehind (rule : Parser α → Parser α) (c : Cursor) : Parser α := fun c' =>
  if c'.ahead.length < c.ahead.length then fix rule c' else stuck c'

theorem fix_of_behind (rule : Parser α → Parser α) (c : Cursor) :
    fix rule c = rule (fixBehind rule c) c := by
  rw [fix]
  rfl

theorem fixBehind_of_lt {c c' : Cursor} (h : c'.ahead.length < c.ahead.length) :
    fixBehind rule c c' = fix rule c' :=
  if_pos h

/-- `fixBehind` has a property of runs if `stuck` has it, and `fix` where less text is ahead. -/
theorem fixBehind_induction {c : Cursor} {P : Cursor → Run α → Prop} (hstuck : ∀ d, P d (stuck d))
    (hfix : ∀ d, d.ahead.length < c.ahead.length → P d (fix rule d)) (d : Cursor) :
    P d (fixBehind rule c d) := by
  unfold fixBehind
  split
  · next hd => exact hfix d hd
  · exact hstuck d

theorem advances_fix (h : ∀ {p : Parser α}, Advances p → Advances (rule p)) :
    Advances (fix rule) := by
  intro c
  induction hn : c.ahead.length using Nat.strongRecOn generalizing c with
  | ind n ih =>
    subst hn
    rw [fix_of_behind]
    refine h (fun d => ?_) c
    exact fixBehind_induction (P := fun d r => ∀ a d', r.result = .ok (a, d') → ∃ n, d' = d.forward n)
      (fun d _ _ hd => nomatch hd) (fun d hd => ih _ hd d rfl) d

theorem advances_fixBehind (h : ∀ {p : Parser α}, Advances p → Advances (rule p)) (c : Cursor) :
    Advances (fixBehind rule c) :=
  fixBehind_induction (P := fun d r => ∀ a d', r.result = .ok (a, d') → ∃ n, d' = d.forward n)
    (fun _ _ _ hd => nomatch hd) (fun d _ => advances_fix h d)

/-- A guarded rule holds of the parser that it defines. -/
theorem fix_eq (h : Guarded rule) (c : Cursor) : fix rule c = rule (fix rule) c := by
  rw [fix_of_behind]
  exact h.congr (advances_fixBehind h.advances c) (advances_fix h.advances)
    fun c' hc => fixBehind_of_lt hc

/-- A property of runs holds of a rule's parser if the rule hands it on and `stuck` has it. With `φ` it
may compare the runs at a cursor and at its image. -/
theorem fix_induction (hr : Guarded rule) (φ : Cursor → Cursor) (hφ : ∀ c, (φ c).ahead = c.ahead)
    {Q : Cursor → Run α → Run α → Prop} (hstuck : ∀ c, Q c (stuck c) (stuck (φ c)))
    (step : ∀ {p : Parser α}, Advances p → (∀ c, Q c (p c) (p (φ c))) →
      ∀ c, Q c (rule p c) (rule p (φ c))) (c : Cursor) : Q c (fix rule c) (fix rule (φ c)) := by
  induction hn : c.ahead.length using Nat.strongRecOn generalizing c with
  | ind n ih =>
    subst hn
    have hadvances := advances_fixBehind hr.advances c
    have hp : ∀ d, Q d (fixBehind rule c d) (fixBehind rule c (φ d)) := by
      intro d
      unfold fixBehind
      rw [hφ]
      split
      · next hd => exact ih _ hd d rfl
      · exact hstuck d
    have hc : fix rule (φ c) = rule (fixBehind rule c) (φ c) := by
      rw [fix_eq hr]
      refine hr.congr (advances_fix hr.advances) hadvances fun d hd => ?_
      rw [hφ] at hd
      exact (fixBehind_of_lt hd).symm
    rw [fix_of_behind, hc]
    exact step hadvances hp c

end Parser

namespace Grammar

open Descent.Parser

theorem length_ahead_of_identifier {s : String} {c c' : Cursor}
    (h : (identifier c).result = .ok (s, c')) : c'.ahead.length < c.ahead.length := by
  unfold identifier at h
  split at h
  · next first others hc =>
    split at h
    · simp only [Run.succeed, Run.silent, Except.ok.injEq, Prod.mk.injEq] at h
      rw [← h.2]
      simp only [Cursor.ahead_forward, List.length_drop, List.length_cons, hc]
      omega
    · cases h
  · cases h

theorem callOf_congr {p q : Parser Expression} {c : Cursor} (hp : Advances p) (hq : Advances q)
    (h : ∀ c' : Cursor, c'.ahead.length < c.ahead.length → p c' = q c') :
    callOf p c = callOf q c := by
  refine Run.andThen_congr fun _ c' hr => ?_
  have hc := length_ahead_of_identifier hr
  rw [nested_congr fun d hd => ?_]
  refine bracket_congr (shrinks_literal _) fun e he => ?_
  refine separatedList_congr (onward_literal _) hp.onward hq.onward fun f hf => h f ?_
  rw [hd] at he
  omega

/-- An expression depends on its argument by way of the call only. -/
theorem expressionOf_congr {p q : Parser Expression} {c : Cursor} (h : callOf p c = callOf q c) :
    expressionOf p c = expressionOf q c := by
  have hcall : (callOf p).map Expression.ofCall c = (callOf q).map Expression.ofCall c :=
    congrArg (Run.map _) h
  simp only [expressionOf, choice, tryEach, hcall, List.length_cons, List.length_nil]

theorem guarded_expressionOf : Guarded expressionOf where
  advances := advances_expressionOf
  congr hp hq h := expressionOf_congr (callOf_congr hp hq h)

theorem expression_eq (c : Cursor) : expression c = expressionOf expression c :=
  fix_eq guarded_expressionOf c

theorem advances_expression : Advances expression := advances_fix advances_expressionOf

end Grammar

end Descent
