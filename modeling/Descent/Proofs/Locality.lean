import Descent.Proofs.Repetition

/-!
# What a construct asks of its parts

A construct runs its parts only at cursors that it has reached. Two parts that agree at those can
stand for each other: `many_congr`, `separatedList_congr` and `bracket_congr` for the cursors with
no more text ahead than at the start, `nested_congr` for those with just the same text ahead. Where
a part comes after another one, that one must not bring text back (`Shrinks`). What is behind an opening
bracket or a level down is run in one place only (`bracket_congr_of_ok`, `nested_congr_of_ok`).
-/

namespace Descent

variable {α β γ : Type}

theorem Run.andThen_congr {r : Run α} {f g : α → Cursor → Run β}
    (h : ∀ a c, r.result = .ok (a, c) → f a c = g a c) : r.andThen f = r.andThen g := by
  unfold andThen
  split
  · next a c hr => rw [h a c hr]
  · rfl

namespace Parser

/-- After a success no more text is ahead than before. -/
def Shrinks (p : Parser α) : Prop :=
  ∀ c a c', (p c).result = .ok (a, c') → c'.ahead.length ≤ c.ahead.length

theorem Onward.shrinks {p : Parser α} (hp : Onward p) : Shrinks p := by
  intro c a c' h
  obtain ⟨htext, hposition⟩ := hp c a c' h
  obtain ⟨word, hahead, -⟩ := Cursor.exists_word_of_position_le htext hposition
  rw [hahead, List.length_append]
  exact Nat.le_add_left _ _

theorem shrinks_literal (s : String) : Shrinks (literal s) := by
  intro c a c' h
  simp only [literal, Run.silent, Cursor.matchLiteral] at h
  split at h
  · cases h; simp
  · cases h

theorem followedBy_congr {left : Parser α} {p q : Parser β} {c : Cursor} (hl : Shrinks left)
    (h : ∀ c' : Cursor, c'.ahead.length ≤ c.ahead.length → p c' = q c') :
    followedBy left p c = followedBy left q c :=
  Run.andThen_congr fun _ _ hr => h _ (hl _ _ _ hr)

theorem bracket_congr_of_ok {opening : Parser α} {closing : Parser γ} {p q : Parser β} {c : Cursor}
    (h : ∀ a d, (opening c).result = .ok (a, d) → p d = q d) :
    bracket opening p closing c = bracket opening q closing c :=
  congrArg (Run.mapFailure _) (Run.andThen_congr fun a d hd => by rw [h a d hd])

theorem bracket_congr {opening : Parser α} {closing : Parser γ} {p q : Parser β} {c : Cursor}
    (ho : Shrinks opening)
    (h : ∀ c' : Cursor, c'.ahead.length ≤ c.ahead.length → p c' = q c') :
    bracket opening p closing c = bracket opening q closing c :=
  bracket_congr_of_ok fun _ _ hr => h _ (ho _ _ _ hr)

theorem descend_ok {c d : Cursor} {u : Unit} (h : (descend c).result = .ok (u, d)) :
    c.depth < c.maxDepth ∧ d = { c with depth := c.depth + 1 } := by
  simp only [descend, Run.silent] at h
  cases hd : c.descend with
  | error f =>
    rw [hd] at h
    cases h
  | ok e =>
    rw [hd] at h
    cases h
    exact Cursor.descend_eq_ok hd

theorem nested_congr_of_ok {p q : Parser α} {c : Cursor}
    (h : ∀ d, (descend c).result = .ok ((), d) → p d = q d) : nested p c = nested q c :=
  Run.andThen_congr fun _ d hd => by rw [h d hd]

theorem nested_congr {p q : Parser α} {c : Cursor}
    (h : ∀ c' : Cursor, c'.ahead = c.ahead → p c' = q c') : nested p c = nested q c := by
  refine nested_congr_of_ok fun d hd => h d ?_
  obtain ⟨-, rfl⟩ := descend_ok hd
  rfl

theorem many_congr {stalled : Nat → Trace} {p q : Parser α} {c : Cursor}
    (h : ∀ c' : Cursor, c'.ahead.length ≤ c.ahead.length → p c' = q c') :
    many stalled p c = many stalled q c := by
  induction hn : c.ahead.length using Nat.strongRecOn generalizing c with
  | ind n ih =>
    subst hn
    rw [many, many, h c (Nat.le_refl _)]
    split
    · rfl
    · split
      · next c' hc => rw [ih _ hc (fun c'' h'' => h c'' (by omega)) rfl]
      · rfl

theorem separatedList_congr {separator : Parser β} {p q : Parser α} {c : Cursor}
    (hs : Onward separator) (hp : Onward p) (hq : Onward q)
    (h : ∀ c' : Cursor, c'.ahead.length ≤ c.ahead.length → p c' = q c') :
    separatedList separator p c = separatedList separator q c := by
  rw [separatedList_eq hs hp, separatedList_eq hs hq, h c (Nat.le_refl _)]
  split
  · rfl
  · split
    · next c' hc =>
      rw [many_congr fun c'' h'' => followedBy_congr hs.shrinks fun d hd => h d (by omega)]
    · rfl

end Parser

end Descent
