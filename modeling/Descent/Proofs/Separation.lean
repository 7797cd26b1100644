import Descent.Proofs.Advance

/-!
# Lists as repetitions

Behind its first element a list is a repetition: of the separator, discarded, with an element behind it
(`separatedList_refines`). The two loops go in step. In every round the list has collected what the
repetition has, with the first element in front of it, and they are at the same place (`InStep`). The
failures of such a round are named when it is repeated and are not when it is part of a list, but of a
failure that is not fatal a loop sees only that it is one, and fatal failures are never named
(`alike_discardLeft`). So a list ends where its last element ends, and a separator without an element
behind it stays where it is.

Nothing is asked of the parsers for this. Where they lead onward, the loops end.
-/

namespace Descent.Parser

variable {α β : Type}

/-! ## Rounds that a loop cannot tell apart -/

/-- The same, except that of a failure that is not fatal it does not matter which one it is. -/
inductive Alike : Outcome α → Outcome α → Prop where
  | same (o : Outcome α) : Alike o o
  | ordinary {f g : Failure} (hf : f.fatal = false) (hg : g.fatal = false) :
    Alike (.error f) (.error g)

theorem endOfList_cons (v : α) (elements : List α) (f : Failure) (c : Cursor) :
    endOfList (v :: elements) f c =
      (endOfList elements f c).map fun (as, d) => (v :: as, d) := by
  unfold endOfList
  split <;> rfl

/-- Naming a round does not change it for a loop. -/
theorem alike_discardLeft (left : Parser α) (main : Parser β) (c : Cursor) :
    Alike (followedBy left main c).result (discardLeft left main c).result := by
  unfold discardLeft
  cases hr : (followedBy left main c).result with
  | ok found =>
    rw [Run.mapFailure_of_ok hr]
    exact .same _
  | error f =>
    rw [Run.mapFailure_of_error hr]
    cases hf : f.fatal with
    | true =>
      rw [Failure.inside_of_fatal hf]
      exact .same _
    | false => exact .ordinary hf (by rw [Failure.fatal_inside, hf])

/-! ## The loops in step -/

/-- The list is where the repetition is, and has collected the same behind its first element. -/
structure InStep (v : α) (list repetition : Collected α) : Prop where
  elements : list.elements.toList = v :: repetition.elements.toList
  cursor : list.cursor = repetition.cursor

/-- What the list comes to is what the repetition comes to, with `v` in front. -/
def Prolongs (v : α) (list repetition : Run (List α)) : Prop :=
  list.result = (repetition.map (v :: ·)).result

section
variable {separator : Parser β} {main : Parser α} {v : α}

/-- A round of the list is one of the repetition. -/
theorem InStep.round {s s' : Collected α} (h : InStep v s s') :
    Pass.Rel (InStep v) (Prolongs v) (listRound separator main s)
      (repeatRound (discardLeft separator main) s') := by
  have hlater : s.elements.isEmpty = false := by
    rw [← Array.isEmpty_toList, h.elements]
    rfl
  have hround := alike_discardLeft separator main s'.cursor
  rw [listRound_eq, repeatRound_eq]
  have hlist : elementOf separator main s.elements.isEmpty s.cursor =
      followedBy separator main s'.cursor := by
    rw [hlater, h.cursor]
    rfl
  rw [← hlist] at hround
  generalize hp : (elementOf separator main s.elements.isEmpty s.cursor).result = o at hround
  generalize hq : (discardLeft separator main s'.cursor).result = o' at hround
  cases hround with
  | ordinary hf hg =>
    rw [roundOf_of_error hp, roundOf_of_error hq, endOfList_of_not_fatal _ hf,
      endOfList_of_not_fatal _ hg, h.elements, h.cursor]
    exact .done rfl
  | same =>
    cases o with
    | error f =>
      rw [roundOf_of_error hp, roundOf_of_error hq, h.elements, h.cursor, endOfList_cons]
      exact .done rfl
    | ok found =>
      obtain ⟨a, d⟩ := found
      by_cases hd : d.position = s'.cursor.position
      · rw [roundOf_of_stalled hp (h.cursor ▸ hd), roundOf_of_stalled hq hd]
        refine .done ?_
        simp only [Prolongs, Run.map, Except.map, h.elements, List.cons_append]
      · rw [roundOf_of_moved hp (h.cursor ▸ hd), roundOf_of_moved hq hd]
        exact .again ⟨by simp [h.elements], rfl⟩

variable {c d : Cursor}

/-- Behind a first element that came to another position, a list is a repetition. -/
theorem result_separatedList_of_moved (hr : (main c).result = .ok (v, d))
    (hd : d.position ≠ c.position) :
    (separatedList separator main c).result =
      ((repeated (discardLeft separator main) d).map (v :: ·)).result := by
  have hround : (elementOf separator main true c).result = .ok (v, d) := hr
  have hloops : Option.Rel (Prolongs v) (loop (listRound separator main) (.start c))
      (loop (repeatRound (discardLeft separator main)) (.start d)) := by
    rw [listRound_eq, loop_of_again (roundOf_of_moved hround hd), ← listRound_eq]
    exact rel_loop (fun _ _ => InStep.round) ⟨rfl, rfl⟩
  unfold separatedList repeated
  generalize loop (listRound separator main) (.start c) = list at hloops ⊢
  generalize loop (repeatRound (discardLeft separator main)) (.start d) = repetition at hloops ⊢
  cases hloops with
  | some h => exact h
  | none => rfl

/-- A list that does not fail has passed an element, and then separators with an element behind each. -/
theorem rounds_of_separatedList {vs : List α} {e : Cursor}
    (h : (separatedList separator main c).result = .ok (vs, e)) :
    (vs = [] ∧ e = c) ∨ ∃ v ws d, vs = v :: ws ∧ (main c).result = .ok (v, d) ∧
      Rounds (followedBy separator main) d ws e := by
  cases hr : (main c).result with
  | error f =>
    rw [separatedList_of_first_error hr] at h
    obtain ⟨-, rfl, rfl⟩ := endOfList_ok h
    exact .inl ⟨rfl, rfl⟩
  | ok found =>
    obtain ⟨v, d⟩ := found
    right
    by_cases hd : d.position = c.position
    · rw [separatedList_of_stalled hr hd] at h
      cases h
      exact ⟨v, [], e, rfl, rfl, .nil e⟩
    · have hround : (elementOf separator main true c).result = .ok (v, d) := hr
      rw [separatedList, listRound_eq, loop_of_again (roundOf_of_moved hround hd)] at h
      obtain ⟨states, t, hruns, ht⟩ := runs_of_ok h
      have hlater : elementOf separator main (#[].push v).isEmpty = followedBy separator main := rfl
      obtain ⟨ws, hvs, hrounds, -⟩ := rounds_of_runs_ok hruns rfl hlater ht
      exact ⟨v, ws, d, hvs, rfl, hrounds⟩

end

/-- **A list fails with its first element if that fails fatally, is empty if it fails otherwise, ends
with it if it came to no other position, and else goes on as a repetition of the discarded separator and
an element, whatever the parsers do. It ends where its last element ends, and if the parsers lead onward
it does end.** -/
theorem separatedList_refines (separator : Parser β) (main : Parser α) (c : Cursor) :
    (∀ f, (main c).result = .error f → f.fatal = true →
      (separatedList separator main c).result = .error f) ∧
    (∀ f, (main c).result = .error f → f.fatal = false →
      (separatedList separator main c).result = .ok ([], c)) ∧
    (∀ v d, (main c).result = .ok (v, d) → d.position = c.position →
      (separatedList separator main c).result = .ok ([v], d)) ∧
    (∀ v d, (main c).result = .ok (v, d) → d.position ≠ c.position →
      (∀ vs e, (repeated (discardLeft separator main) d).result = .ok (vs, e) →
        (separatedList separator main c).result = .ok (v :: vs, e)) ∧
      (∀ f, (repeated (discardLeft separator main) d).result = .error f →
        (separatedList separator main c).result = .error f)) ∧
    (∀ vs e, (separatedList separator main c).result = .ok (vs, e) →
      (vs = [] ∧ e = c) ∨ ∃ v ws d, vs = v :: ws ∧ (main c).result = .ok (v, d) ∧
        Rounds (followedBy separator main) d ws e) ∧
    (Onward separator → Onward main → ∃ r, loop (listRound separator main) (.start c) = some r) := by
  refine ⟨fun f hr hf => separatedList_of_fatal hr hf, fun f hr hf => ?_, fun v d hr hd => ?_,
    fun v d hr hd => ?_, fun vs e => rounds_of_separatedList,
    fun hs hm => ?_⟩
  · rw [separatedList_of_error hr hf]
  · rw [separatedList_of_stalled hr hd]
  · rw [result_separatedList_of_moved hr hd]
    exact ⟨fun vs e hvs => Run.map_ok.2 ⟨vs, hvs, rfl⟩, fun f hf => Run.map_error.2 hf⟩
  · obtain ⟨states, r, hruns⟩ := exists_runs_listRound hs hm (.start c)
    exact ⟨r, hruns.loop_eq⟩

/-- The last separator has no element behind it and stays. -/
theorem separatedList_refines_trailing_separator :
    (separatedList (literal ",") (literal "a") (Cursor.atStart "a,a,")).result =
        .ok (["a", "a"], (Cursor.atStart "a,a,").forward 3) := by
  have hfirst : (literal "a" (Cursor.atStart "a,a,")).result =
      .ok ("a", (Cursor.atStart "a,a,").forward 1) := rfl
  have hloop : ∃ states t, Runs (repeatRound (discardLeft (literal ",") (literal "a")))
      (.start ((Cursor.atStart "a,a,").forward 1)) states t ∧
        t.result = .ok (["a"], (Cursor.atStart "a,a,").forward 3) :=
    ⟨_, _, .again rfl (.done rfl), rfl⟩
  obtain ⟨states, t, hruns, hrest⟩ := hloop
  obtain ⟨-, -, -, hbehind, -⟩ :=
    separatedList_refines (literal ",") (literal "a") (Cursor.atStart "a,a,")
  refine (hbehind _ _ hfirst (by decide)).1 _ _ ?_
  rw [repeated, hruns.loop_eq]
  exact hrest

end Descent.Parser
