import Descent.Proofs.Unfolding

/-!
# The same text elsewhere

A parser looks at the text ahead only. When other text has been passed before, or when the depth
limit is higher, it therefore does the same at another place: the same value with the same text
behind it, or the same failure, that much further on. The one thing that a higher limit may change
is a fatal failure, since the limit may have been what caused it.

* `Cursor.elsewhere pre extra` : the cursor behind `pre` (nearest character first), with a limit
  that is higher by `extra`;
* `Portable pre extra p` : `p` does the same there, unless it is cut short;
* `portable_choice`, `portable_repeated` and so on : the constructs hand this on, and the grammar has it
  (`portable_expression`).
-/

namespace Descent

variable {α β γ : Type}

/-! ## Places and outcomes -/

/-- The cursor with `pre` passed before all else and a limit higher by `extra`. -/
def Cursor.elsewhere (pre : List Char) (extra : Nat) (c : Cursor) : Cursor :=
  { c with passed := c.passed ++ pre, maxDepth := c.maxDepth + extra }

/-- The failure that many bytes further on. -/
def Failure.later (bytes : Nat) (f : Failure) : Failure := { f with position := f.position + bytes }

/-- The outcome that an attempt elsewhere comes to. -/
def Outcome.elsewhere (pre : List Char) (extra : Nat) : Outcome α → Outcome α
  | .ok (a, c) => .ok (a, c.elsewhere pre extra)
  | .error f => .error (f.later (Text.byteLength pre))

/-- With a higher limit, an attempt that failed fatally may come to something else. -/
def Cut (extra : Nat) (o : Outcome α) : Prop := extra ≠ 0 ∧ ∃ f, o = .error f ∧ f.fatal = true

/-- What `p` does at a cursor it does elsewhere as well, unless it is cut short. -/
def Portable (pre : List Char) (extra : Nat) (p : Parser α) : Prop :=
  ∀ c, Cut extra (p c).result ∨
    (p (c.elsewhere pre extra)).result = Outcome.elsewhere pre extra (p c).result

variable {pre : List Char} {extra : Nat}

namespace Cursor

@[simp] theorem ahead_elsewhere (c : Cursor) : (c.elsewhere pre extra).ahead = c.ahead := rfl

@[simp] theorem position_elsewhere (c : Cursor) :
    (c.elsewhere pre extra).position = c.position + Text.byteLength pre := by
  simp [position, elsewhere]

theorem forward_elsewhere (c : Cursor) (n : Nat) :
    (c.elsewhere pre extra).forward n = (c.forward n).elsewhere pre extra := by
  simp [forward, elsewhere]

end Cursor

/-- What a failure expected and how far it got are independent of each other. -/
theorem Failure.inside_later (context : String) (f : Failure) (bytes : Nat) :
    (f.later bytes).inside context = (f.inside context).later bytes := by
  by_cases hf : f.fatal = true
  · simp [inside, later, hf]
  · simp [inside, later, hf]

theorem Outcome.elsewhere_map (g : α → β) (o : Outcome α) :
    Outcome.elsewhere pre extra (o.map fun (a, c) => (g a, c)) =
      (Outcome.elsewhere pre extra o).map fun (a, c) => (g a, c) := by
  cases o with
  | error f => rfl
  | ok found => rfl

namespace Parser

/-! ## Single steps -/

theorem portable_literal (s : String) : Portable pre extra (literal s) := by
  intro c
  right
  by_cases h : s.toList <+: c.ahead
  · have h' : s.toList <+: (c.elsewhere pre extra).ahead := h
    rw [literal_of_isPrefix h, literal_of_isPrefix h', Cursor.forward_elsewhere]
    rfl
  · have h' : ¬ s.toList <+: (c.elsewhere pre extra).ahead := h
    rw [literal_of_not_isPrefix h, literal_of_not_isPrefix h', Cursor.position_elsewhere]
    rfl

/-- The one step that depends on the limit. -/
theorem portable_descend : Portable pre extra descend := by
  intro c
  by_cases h : c.depth < c.maxDepth
  · right
    have h' : (c.elsewhere pre extra).depth < (c.elsewhere pre extra).maxDepth :=
      Nat.lt_of_lt_of_le h (Nat.le_add_right _ _)
    rw [descend_of_lt h, descend_of_lt h']
    rfl
  · rw [descend_of_le (Nat.not_lt.1 h)]
    by_cases he : extra = 0
    · right
      subst he
      have h' : (c.elsewhere pre 0).maxDepth ≤ (c.elsewhere pre 0).depth := Nat.not_lt.1 h
      rw [descend_of_le h', Cursor.position_elsewhere]
      rfl
    · exact .inl ⟨he, _, rfl, rfl⟩

/-! ## One after the other -/

theorem portable_andThen {p : Parser α} {q : α → Parser β} (hp : Portable pre extra p)
    (hq : ∀ a, Portable pre extra (q a)) : Portable pre extra fun c => (p c).andThen q := by
  intro c
  show Cut extra ((p c).andThen q).result ∨ ((p (c.elsewhere pre extra)).andThen q).result =
    Outcome.elsewhere pre extra ((p c).andThen q).result
  rcases hp c with ⟨he, f, hf, hfatal⟩ | hc
  · left
    rw [Run.andThen_of_error hf]
    exact ⟨he, f, rfl, hfatal⟩
  · cases hr : (p c).result with
    | error f =>
      right
      rw [hr] at hc
      rw [Run.andThen_of_error hr, Run.andThen_of_error hc]
      rfl
    | ok found =>
      obtain ⟨a, d⟩ := found
      rw [hr] at hc
      rw [Run.andThen_of_ok hr, Run.andThen_of_ok hc]
      exact hq a d

theorem portable_map {p : Parser α} (hp : Portable pre extra p) (g : α → β) :
    Portable pre extra (p.map g) := by
  intro c
  rcases hp c with ⟨he, f, hf, hfatal⟩ | hc
  · exact .inl ⟨he, f, Run.map_error.2 hf, hfatal⟩
  · right
    show Except.map _ (p (c.elsewhere pre extra)).result = _
    rw [hc]
    exact (Outcome.elsewhere_map g _).symm

theorem portable_inside {p : Parser α} (hp : Portable pre extra p) (context : String) :
    Portable pre extra fun c => (p c).mapFailure (·.inside context) := by
  intro c
  rcases hp c with ⟨he, f, hf, hfatal⟩ | hc
  · exact .inl ⟨he, f, Run.mapFailure_error.2 ⟨f, hf, Failure.inside_of_fatal hfatal _⟩, hfatal⟩
  · right
    show ((p (c.elsewhere pre extra)).mapFailure (·.inside context)).result =
      Outcome.elsewhere pre extra ((p c).mapFailure (·.inside context)).result
    cases hr : (p c).result with
    | ok found =>
      rw [hr] at hc
      rw [Run.mapFailure_of_ok hr, Run.mapFailure_of_ok hc]
      rfl
    | error f =>
      rw [hr] at hc
      rw [Run.mapFailure_of_error hr, Run.mapFailure_of_error hc, Failure.inside_later]
      rfl

theorem portable_both {p : Parser α} {q : Parser β} (hp : Portable pre extra p)
    (hq : Portable pre extra q) : Portable pre extra (both p q) :=
  portable_andThen hp fun _ => portable_map hq _

theorem portable_followedBy {left : Parser α} {main : Parser β} (hl : Portable pre extra left)
    (hm : Portable pre extra main) : Portable pre extra (followedBy left main) :=
  portable_andThen hl fun _ => hm

theorem portable_bracket {opening : Parser α} {content : Parser β} {closing : Parser γ}
    (ho : Portable pre extra opening) (hc : Portable pre extra content)
    (hl : Portable pre extra closing) : Portable pre extra (bracket opening content closing) :=
  portable_inside
    (portable_andThen ho fun _ => portable_andThen hc fun _ => portable_map hl _) _

theorem portable_nested {p : Parser α} (hp : Portable pre extra p) :
    Portable pre extra (nested p) :=
  portable_andThen portable_descend fun _ => portable_andThen hp fun _ _ => .inr rfl

/-! ## Choices -/

/-- Which of two failures got further does not depend on where the text stands. -/
theorem furthest_later (best : Option Failure) (f : Failure) (bytes : Nat) :
    furthest (best.map (·.later bytes)) (f.later bytes) = (furthest best f).later bytes := by
  cases best with
  | none => rfl
  | some g =>
    simp only [furthest, Option.map_some, Failure.later, Nat.add_lt_add_iff_right]
    split
    · rfl
    · rfl

theorem portable_tryEach {n : Nat} {ps : List (Parser α)} (hps : ∀ p ∈ ps, Portable pre extra p)
    (best : Option Failure) (c : Cursor) :
    Cut extra (tryEach n ps best c).result ∨
      (tryEach n ps (best.map (·.later (Text.byteLength pre))) (c.elsewhere pre extra)).result =
        Outcome.elsewhere pre extra (tryEach n ps best c).result := by
  induction ps generalizing best with
  | nil =>
    right
    cases best with
    | none =>
      simp only [tryEach, exhausted, Option.map_none, Option.getD_none, Cursor.position_elsewhere]
      rfl
    | some f => rfl
  | cons p ps ih =>
    obtain ⟨hp, hrest⟩ := List.forall_mem_cons.1 hps
    rcases hp c with ⟨he, f, hf, hfatal⟩ | hc
    · rw [tryEach_of_fatal hf hfatal]
      exact .inl ⟨he, f, hf, hfatal⟩
    · cases hr : (p c).result with
      | ok found =>
        rw [hr] at hc
        rw [tryEach_of_ok hr, tryEach_of_ok hc, hr]
        exact .inr hc
      | error f =>
        rw [hr] at hc
        by_cases hfatal : f.fatal = true
        · rw [tryEach_of_fatal hr hfatal, tryEach_of_fatal hc hfatal, hr]
          exact .inr hc
        · have hfatal' : f.fatal = false := Bool.eq_false_iff.2 hfatal
          rw [tryEach_of_error hr hfatal', tryEach_of_error hc hfatal', furthest_later]
          exact ih hrest (some (furthest best f))

theorem portable_choice {ps : List (Parser α)} (hps : ∀ p ∈ ps, Portable pre extra p) :
    Portable pre extra (choice ps) :=
  portable_tryEach hps none

/-! ## Lists -/

theorem endOfList_elsewhere (elements : List α) (f : Failure) (c : Cursor) :
    endOfList elements (f.later (Text.byteLength pre)) (c.elsewhere pre extra) =
      Outcome.elsewhere pre extra (endOfList elements f c) := by
  unfold endOfList
  show (if f.fatal then _ else _) = _
  split
  · rfl
  · rfl

theorem portable_many {stalled : Nat → Trace} {p : Parser α} (hp : Portable pre extra p) :
    Portable pre extra (many stalled p) := by
  intro c
  induction hn : c.ahead.length using Nat.strongRecOn generalizing c with
  | ind n ih =>
    subst hn
    rcases hp c with ⟨he, f, hf, hfatal⟩ | hc
    · exact .inl ⟨he, f, many_of_fatal hf hfatal, hfatal⟩
    · cases hr : (p c).result with
      | error f =>
        right
        rw [hr] at hc
        rw [many, many]
        simp only [hr, hc]
        exact endOfList_elsewhere [] f c
      | ok found =>
        obtain ⟨a, d⟩ := found
        rw [hr] at hc
        by_cases hd : d.ahead.length < c.ahead.length
        · rw [many_of_ok hr hd, many_of_ok hc hd]
          rcases ih _ hd d rfl with ⟨he, f, hf, hfatal⟩ | hrest
          · exact .inl ⟨he, f, Run.map_error.2 hf, hfatal⟩
          · right
            show Except.map _ (many stalled p (d.elsewhere pre extra)).result = _
            rw [hrest]
            exact (Outcome.elsewhere_map _ _).symm
        · right
          rw [many_of_stalled hr hd, many_of_stalled hc hd]
          rfl

theorem portable_repeated {p : Parser α} (ha : Advances p) (hp : Portable pre extra p) :
    Portable pre extra (repeated p) := by
  rw [repeated_eq_many ha.onward]
  exact portable_many hp

theorem portable_separatedList {separator : Parser β} {p : Parser α} (hsa : Advances separator)
    (hs : Portable pre extra separator) (ha : Advances p) (hp : Portable pre extra p) :
    Portable pre extra (separatedList separator p) := by
  intro c
  rcases hp c with ⟨he, f, hf, hfatal⟩ | hc
  · exact .inl ⟨he, f, separatedList_of_fatal hf hfatal, hfatal⟩
  · cases hr : (p c).result with
    | error f =>
      right
      rw [hr] at hc
      rw [separatedList_of_first_error hr, separatedList_of_first_error hc]
      exact endOfList_elsewhere [] f c
    | ok found =>
      obtain ⟨a, d⟩ := found
      rw [hr] at hc
      by_cases hd : d.position = c.position
      · right
        have hd' : (d.elsewhere pre extra).position = (c.elsewhere pre extra).position := by
          rw [Cursor.position_elsewhere, Cursor.position_elsewhere, hd]
        rw [separatedList_of_stalled hr hd, separatedList_of_stalled hc hd']
        rfl
      · have hless := (ha.onward.length_ahead_lt_iff hr).2 hd
        rw [separatedList_of_ok hsa.onward ha.onward hr hless,
          separatedList_of_ok hsa.onward ha.onward hc hless]
        exact portable_map (portable_many (portable_followedBy hs hp)) (a :: ·) d

end Parser

/-! ## The grammar -/

namespace Grammar

open Descent.Parser

theorem portable_identifier : Portable pre extra identifier := by
  intro c
  right
  unfold identifier
  rw [Cursor.ahead_elsewhere]
  split
  · split
    · simp only [Cursor.forward_elsewhere]
      rfl
    · simp only [identifier.missing, Cursor.position_elsewhere]
      rfl
  · simp only [identifier.missing, Cursor.position_elsewhere]
    rfl

theorem portable_number : Portable pre extra number := by
  intro c
  right
  unfold number
  rw [Cursor.ahead_elsewhere]
  split
  · simp only [number.refuse, Cursor.position_elsewhere]
    rfl
  · simp only [Cursor.forward_elsewhere, Cursor.ahead_elsewhere, number.refuse,
      Cursor.position_elsewhere]
    split
    · rfl
    · split
      · rfl
      · split
        · rfl
        · rfl

theorem portable_boolean : Portable pre extra boolean := by
  refine portable_map (portable_choice fun p hp => ?_) _
  simp only [List.mem_cons, List.not_mem_nil, or_false] at hp
  rcases hp with rfl | rfl
  · exact portable_literal _
  · exact portable_literal _

theorem portable_callOf {p : Parser Expression} (ha : Advances p) (hp : Portable pre extra p) :
    Portable pre extra (callOf p) :=
  portable_both portable_identifier <| portable_nested <|
    portable_bracket (portable_literal _)
      (portable_separatedList (advances_literal _) (portable_literal _) ha hp) (portable_literal _)

theorem portable_expressionOf {p : Parser Expression} (ha : Advances p)
    (hp : Portable pre extra p) :
    Portable pre extra (expressionOf p) := by
  refine portable_choice fun q hq => ?_
  simp only [List.mem_cons, List.not_mem_nil, or_false] at hq
  rcases hq with rfl | rfl | rfl
  · exact portable_map portable_boolean _
  · exact portable_map portable_number _
  · exact portable_map (portable_callOf ha hp) _

theorem portable_stuck : Portable pre extra (stuck : Parser Expression) := by
  intro c
  right
  simp only [stuck, Cursor.position_elsewhere]
  rfl

/-- **Elsewhere the grammar reads the same, unless the limit cuts it short.** -/
theorem portable_expression : Portable pre extra expression :=
  fix_induction guarded_expressionOf (Cursor.elsewhere pre extra) (fun _ => rfl)
    (Q := fun _ r r' => Cut extra r.result ∨ r'.result = Outcome.elsewhere pre extra r.result)
    portable_stuck portable_expressionOf

end Grammar

end Descent
