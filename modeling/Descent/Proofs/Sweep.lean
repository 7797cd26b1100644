import Descent.Proofs.Recognition
import Descent.Proofs.WellBehaved

/-!
# No place is tried twice

The grammar has an ordered choice and lists that go back to before a separator, and remembers nothing
of what it has tried. Still it looks for an expression at most once at every place, since what fails
is not tried again: a list that goes back ends in front of its separator, and there the closing
bracket of its call is missing.

An expression that does not start with a truth value is told of by an exhausted choice of two, here
an attempt, and if nothing else is found there either by an exhausted choice of three.

* `AttemptedOnce t` : the attempts of `t` go through the text from left to right, and each is given up
  at most once and not before it was made;
* `Run.Sweeps` : what a run attempts lies between its start and its end;
* `Run.SweepsList` : the same of a list, as far as it ends at a closing bracket;
* `sweeps_expression` : so it is with every expression.
-/

namespace Descent

open Descent.Cursor

/-! ## Attempts in a trace -/

/-- Where a choice of `n` was exhausted, if that is what the event tells. -/
def Event.exhausted? (n : Nat) : Event → Option Nat
  | .choiceExhausted m p _ => if m = n then some p else none
  | .repeatStalled _ => none

/-- Where choices of `n` were exhausted, in the order in which it was told. -/
def exhaustedAt (n : Nat) (t : Trace) : List Nat := t.filterMap (Event.exhausted? n)

/-- The event of an attempt at `p`: there is neither `true` nor `false`. -/
def attempt (p : Nat) : Event := .choiceExhausted 2 p { expected := "true", position := p }

theorem exhaustedAt_append (n : Nat) (s t : Trace) :
    exhaustedAt n (s ++ t) = exhaustedAt n s ++ exhaustedAt n t :=
  List.filterMap_append

/-- Giving up is not an attempt. -/
theorem exhaustedAt_concat (t : Trace) (p : Nat) (f : Failure) :
    exhaustedAt 2 (attempt p :: (t ++ [.choiceExhausted 3 p f])) =
      exhaustedAt 2 (attempt p :: t) := by
  rw [← List.cons_append, exhaustedAt_append]
  exact List.append_nil _

theorem mem_exhaustedAt {n p : Nat} {t : Trace} :
    p ∈ exhaustedAt n t ↔ ∃ f, .choiceExhausted n p f ∈ t := by
  rw [exhaustedAt, List.mem_filterMap]
  constructor
  · rintro ⟨e, he, hp⟩
    cases e with
    | choiceExhausted m q f =>
      simp only [Event.exhausted?, Option.ite_none_right_eq_some, Option.some.injEq] at hp
      obtain ⟨rfl, rfl⟩ := hp
      exact ⟨f, he⟩
    | repeatStalled q => cases hp
  · rintro ⟨f, hf⟩
    exact ⟨_, hf, by simp [Event.exhausted?]⟩

/-- Attempts go from left to right, and each is given up at most once, after it was made. -/
structure AttemptedOnce (t : Trace) : Prop where
  increasing : (exhaustedAt 2 t).Pairwise (· < ·)
  reported : ∀ p f, .choiceExhausted 2 p f ∈ t → f = { expected := "true", position := p }
  preceded : ∀ p f, .choiceExhausted 3 p f ∈ t →
    List.Sublist [attempt p, .choiceExhausted 3 p f] t
  once : (exhaustedAt 3 t).Nodup

namespace AttemptedOnce

variable {s t : Trace}

theorem nil : AttemptedOnce [] where
  increasing := .nil
  reported := fun _ _ h => nomatch h
  preceded := fun _ _ h => nomatch h
  once := .nil

/-- Nothing is given up that was not attempted. -/
theorem subset (h : AttemptedOnce t) : exhaustedAt 3 t ⊆ exhaustedAt 2 t := by
  intro p hp
  obtain ⟨f, hf⟩ := mem_exhaustedAt.1 hp
  exact mem_exhaustedAt.2 ⟨_, (h.preceded p f hf).subset List.mem_cons_self⟩

theorem append (hs : AttemptedOnce s) (ht : AttemptedOnce t)
    (h : ∀ p ∈ exhaustedAt 2 s, ∀ q ∈ exhaustedAt 2 t, p < q) : AttemptedOnce (s ++ t) where
  increasing := by
    rw [exhaustedAt_append]
    exact List.pairwise_append.2 ⟨hs.increasing, ht.increasing, h⟩
  reported := fun p f hf =>
    (List.mem_append.1 hf).elim (hs.reported p f) (ht.reported p f)
  preceded := fun p f hf =>
    (List.mem_append.1 hf).elim
      (fun hf => (hs.preceded p f hf).trans (List.sublist_append_left s t))
      (fun hf => (ht.preceded p f hf).trans (List.sublist_append_right s t))
  once := by
    rw [exhaustedAt_append]
    refine List.pairwise_append.2 ⟨hs.once, ht.once, fun p hp q hq => ?_⟩
    exact Nat.ne_of_lt (h p (hs.subset hp) q (ht.subset hq))

/-- An attempt to the left of all others is made first. -/
theorem cons (ht : AttemptedOnce t) {p : Nat} (h : ∀ q ∈ exhaustedAt 2 t, p < q) :
    AttemptedOnce (attempt p :: t) := by
  have hp : AttemptedOnce [attempt p] := by
    refine ⟨List.pairwise_singleton _ _, fun q f hq => ?_, fun q f hq => ?_, .nil⟩
    · cases List.mem_singleton.1 hq
      rfl
    · cases List.mem_singleton.1 hq
  refine hp.append ht fun q hq => ?_
  cases List.mem_singleton.1 hq
  exact h

/-- It is given up after all that was attempted in its course. -/
theorem concat (ht : AttemptedOnce t) {p : Nat} (h : ∀ q ∈ exhaustedAt 2 t, p < q) (f : Failure) :
    AttemptedOnce (attempt p :: (t ++ [.choiceExhausted 3 p f])) := by
  have hcons := ht.cons h
  have hthree : exhaustedAt 3 (attempt p :: (t ++ [.choiceExhausted 3 p f])) =
      exhaustedAt 3 t ++ [p] := exhaustedAt_append 3 t _
  refine ⟨?_, fun q g hq => ?_, fun q g hq => ?_, ?_⟩
  · rw [exhaustedAt_concat]
    exact hcons.increasing
  · rw [← List.cons_append] at hq
    rcases List.mem_append.1 hq with hq | hq
    · exact hcons.reported q g hq
    · cases List.mem_singleton.1 hq
  · rw [← List.cons_append] at hq ⊢
    rcases List.mem_append.1 hq with hq | hq
    · exact (hcons.preceded q g hq).trans (List.sublist_append_left _ _)
    · cases List.mem_singleton.1 hq
      exact (List.sublist_append_right t _).cons_cons _
  · rw [hthree]
    refine List.pairwise_append.2 ⟨ht.once, List.pairwise_singleton _ _, fun q hq r hr => ?_⟩
    cases List.mem_singleton.1 hr
    exact (Nat.ne_of_lt (h q (ht.subset hq))).symm

end AttemptedOnce

/-! ## Attempts in a run -/

variable {α β : Type}

/-- What the run attempts it attempts once, and not before `c` where it starts. -/
structure Run.Tries (c : Cursor) (r : Run α) : Prop where
  once : AttemptedOnce r.trace
  sees : ∀ p ∈ exhaustedAt 2 r.trace, c.Sees p

/-- And it attempts nothing at or behind the place where it ends. -/
structure Run.Sweeps (c : Cursor) (r : Run α) : Prop extends r.Tries c where
  lt_end : ∀ a c', r.result = .ok (a, c') → ∀ p ∈ exhaustedAt 2 r.trace, p < c'.position

/-- A list may have tried the place where it ends, as long as a closing bracket stands there. At any
other place it may have gone back. -/
structure Run.SweepsList (c : Cursor) (r : Run α) : Prop extends r.Tries c where
  le_end : ∀ a c', r.result = .ok (a, c') → c'.ahead.head? = some ')' →
    ∀ p ∈ exhaustedAt 2 r.trace, p ≤ c'.position

namespace Run

variable {c d : Cursor}

section
variable {r : Run α} (h : r.trace = [])
include h

theorem no_attempt_of_silent (p : Nat) : p ∉ exhaustedAt 2 r.trace := by
  rw [h]
  exact List.not_mem_nil

theorem tries_of_silent : r.Tries c :=
  ⟨h ▸ .nil, fun p hp => absurd hp (no_attempt_of_silent h p)⟩

theorem sweeps_of_silent : r.Sweeps c :=
  ⟨tries_of_silent h, fun _ _ _ p hp => absurd hp (no_attempt_of_silent h p)⟩

theorem sweepsList_of_silent : r.SweepsList c :=
  ⟨tries_of_silent h, fun _ _ _ _ p hp => absurd hp (no_attempt_of_silent h p)⟩

end

theorem Tries.trans {r : Run α} (h : r.Tries d) (hd : c.LeadsTo d) : r.Tries c :=
  ⟨h.once, fun p hp => hd.trans_sees (h.sees p hp)⟩

theorem SweepsList.trans {r : Run α} (h : r.SweepsList d) (hd : c.LeadsTo d) : r.SweepsList c :=
  ⟨h.toTries.trans hd, h.le_end⟩

theorem SweepsList.map {r : Run α} (h : r.SweepsList c) (g : α → β) : (r.map g).SweepsList c := by
  refine ⟨⟨h.once, h.sees⟩, fun b c' hb => ?_⟩
  obtain ⟨a, ha, -⟩ := map_ok.1 hb
  exact h.le_end a c' ha

/-- The rest of a list lies behind its first element. -/
theorem Sweeps.sweepsList_after {r : Run α} (hr : r.Sweeps c) {a : α} {n : Nat}
    (ha : r.result = .ok (a, c.forward n)) {rest : Run β} (hrest : rest.SweepsList (c.forward n))
    (hadvance : ∀ b d, rest.result = .ok (b, d) → (c.forward n).position ≤ d.position) :
    (rest.after r.trace).SweepsList c := by
  have hlt := hr.lt_end a _ ha
  have hmem : ∀ p ∈ exhaustedAt 2 (rest.after r.trace).trace,
      p ∈ exhaustedAt 2 r.trace ∨ p ∈ exhaustedAt 2 rest.trace := by
    intro p hp
    rw [Run.after, exhaustedAt_append] at hp
    exact List.mem_append.1 hp
  refine ⟨⟨hr.once.append hrest.once fun p hp q hq => ?_, fun p hp => ?_⟩, fun b d hb hd p hp => ?_⟩
  · have h1 := hlt p hp
    have h2 := (hrest.sees q hq).position_le
    omega
  · rcases hmem p hp with hp | hp
    · exact hr.sees p hp
    · exact (leadsTo_forward c n).trans_sees (hrest.sees p hp)
  · rcases hmem p hp with hp | hp
    · have h1 := hlt p hp
      have h2 := hadvance b d hb
      omega
    · exact hrest.le_end b d hb hd p hp

end Run

namespace Grammar

open Descent.Parser Descent.Run

/-! ### Lists of arguments -/

theorem le_position_of_many {c d : Cursor} {es : List Expression}
    (h : (many (fun _ => []) (followedBy (literal ",") expression) c).result = .ok (es, d)) :
    c.position ≤ d.position := by
  obtain ⟨n, rfl⟩ :=
    advances_many (advances_followedBy (advances_literal ",") advances_expression) c es d h
  exact position_le_forward c n

/-- An argument, and the arguments that follow with a comma in front of each. -/
theorem sweepsList_of_argument {c : Cursor} {e : Expression} {n : Nat}
    (he : (expression c).Sweeps c) (hr : (expression c).result = .ok (e, c.forward n))
    (hrest : (many (fun _ => []) (followedBy (literal ",") expression) (c.forward n)).SweepsList
      (c.forward n)) :
    (((many (fun _ => []) (followedBy (literal ",") expression) (c.forward n)).map (e :: ·)).after
      (expression c).trace).SweepsList c := by
  refine he.sweepsList_after hr (hrest.map _) fun es d hd => ?_
  obtain ⟨es', hes, -⟩ := map_ok.1 hd
  exact le_position_of_many hes

/-- The place behind a comma is tried once. If no argument is found there the list ends in front of the
comma, where the closing bracket is not. -/
theorem sweepsList_many {c : Cursor}
    (h : ∀ d : Cursor, d.ahead.length < c.ahead.length → (expression d).Sweeps d) :
    (many (fun _ => []) (followedBy (literal ",") expression) c).SweepsList c := by
  revert h
  refine furtherArguments_induction (motive := fun c r =>
    (∀ d : Cursor, d.ahead.length < c.ahead.length → (expression d).Sweeps d) → r.SweepsList c)
    (fun c _ _ => sweepsList_of_silent rfl) ?_ ?_ c
  · intro c f hcomma hless _ h
    have htries := (h _ hless).toTries.trans (leadsTo_forward c 1)
    refine ⟨⟨htries.once, htries.sees⟩, fun es d hd hclosing => ?_⟩
    obtain ⟨-, -, rfl⟩ := endOfList_ok hd
    rw [hcomma] at hclosing
    exact absurd hclosing (by decide)
  · intro c d e hless he hshort ih h
    obtain ⟨n, rfl⟩ := advances_expression _ e d he
    have hrest := ih fun d' hd' => h d' (by omega)
    exact (sweepsList_of_argument (h _ hless) he hrest).trans (leadsTo_forward c 1)

/-- In front of a closing bracket the only attempt is the one at the bracket. -/
theorem exhaustedAt_of_closing {c : Cursor} (h : c.ahead.head? = some ')') :
    exhaustedAt 2 (expression c).trace = [c.position] := by
  rw [expression_refused_of_closing h]
  rfl

theorem sweepsList_separatedList {c : Cursor}
    (h : ∀ d : Cursor, d.ahead.length ≤ c.ahead.length → (expression d).Sweeps d) :
    (separatedList (literal ",") expression c).SweepsList c := by
  have hc := h c (Nat.le_refl _)
  cases hr : (expression c).result with
  | error f =>
    rw [separatedList_of_first_error hr]
    refine ⟨⟨hc.once, hc.sees⟩, fun es d hd hclosing p hp => ?_⟩
    obtain ⟨-, -, rfl⟩ := endOfList_ok hd
    rw [exhaustedAt_of_closing hclosing] at hp
    exact Nat.le_of_eq (List.mem_singleton.1 hp)
  | ok found =>
    obtain ⟨e, d⟩ := found
    have hless := sound_expression.consumes c e d hr
    obtain ⟨n, rfl⟩ := advances_expression c e d hr
    rw [separatedList_of_ok (onward_literal ",") advances_expression.onward hr hless]
    exact sweepsList_of_argument hc hr
      (sweepsList_many fun d' hd' => h d' (Nat.le_of_lt (Nat.lt_trans hd' hless)))

/-! ### Expressions -/

/-- Where arguments are attempted is behind the start of their call. -/
theorem behind_of_argumentsAt {c : Cursor} {name rest : List Char}
    (h : NameAhead c.ahead name rest) {p : Nat} (hp : (argumentsAt c name).Sees p) :
    c.Sees p ∧ c.position < p := by
  have hlt := position_lt_argumentsAt h 0
  rw [position_forward, List.take_zero] at hlt
  have hforward : (c.forward (name.length + 1)).Sees p := ⟨hp.position_le, hp.le_size, hp.boundary⟩
  exact ⟨(leadsTo_forward c _).trans_sees hforward, Nat.lt_of_lt_of_le hlt hp.position_le⟩

/-- The closing bracket is passed. -/
theorem position_lt_closing {c : Cursor} {name : List Char} {n : Nat}
    (h : ((argumentsAt c name).forward n).ahead.head? = some ')') :
    ((argumentsAt c name).forward n).position < (c.forward (name.length + 1 + (n + 1))).position := by
  obtain ⟨tail, ht⟩ := List.head?_eq_some_iff.1 h
  have hbracket : ((argumentsAt c name).forward n).ahead = [')'] ++ tail := ht
  rw [← ascend_argumentsAt]
  exact position_lt_forward hbracket (by decide)

section
variable {c : Cursor} {t : Trace} (ht : AttemptedOnce t)
  (hp : ∀ p ∈ exhaustedAt 2 t, c.Sees p ∧ c.position < p)
include ht hp

/-- An attempt at `c` is followed by those behind it. -/
theorem tries_noKeyword (result : Outcome Expression) :
    ({ result := result, trace := noKeyword c :: t } : Run Expression).Tries c where
  once := ht.cons fun p h => (hp p h).2
  sees := List.forall_mem_cons.2 ⟨sees_position c, fun p h => (hp p h).1⟩

theorem sweeps_error (f : Failure) :
    ({ result := .error f, trace := noKeyword c :: t } : Run Expression).Sweeps c :=
  ⟨tries_noKeyword ht hp _, fun _ _ h => nomatch h⟩

theorem sweeps_refused (f : Failure) : (refused c t f).Sweeps c := by
  have htries := tries_noKeyword ht hp (.error f)
  have htold := exhaustedAt_concat t c.position f
  refine ⟨⟨ht.concat (fun p h => (hp p h).2) f, fun p h => ?_⟩, fun _ _ h => nomatch h⟩
  exact htries.sees p (htold ▸ h)

theorem sweeps_ok {e : Expression} {d : Cursor} (hc : c.position < d.position)
    (hd : ∀ p ∈ exhaustedAt 2 t, p < d.position) :
    ({ result := .ok (e, d), trace := noKeyword c :: t } : Run Expression).Sweeps c := by
  refine ⟨tries_noKeyword ht hp _, fun a c' h => ?_⟩
  cases h
  exact List.forall_mem_cons.2 ⟨hc, hd⟩

end

/-- The arguments of a call, once every expression behind its name sweeps. -/
theorem sweepsList_arguments {c : Cursor} {name rest : List Char} (h : NameAhead c.ahead name rest)
    (hbehind : ∀ d : Cursor, d.ahead.length < c.ahead.length → (expression d).Sweeps d) :
    (arguments expression c name).SweepsList (argumentsAt c name) :=
  sweepsList_separatedList fun d hd =>
    hbehind d (Nat.lt_of_le_of_lt hd (length_ahead_argumentsAt h 0))

/-- **Whatever an expression attempts it attempts once, between its start and its end.** -/
theorem sweeps_expression (c : Cursor) : (expression c).Sweeps c := by
  induction hn : c.ahead.length using Nat.strongRecOn generalizing c with
  | ind n ih =>
    subst hn
    have hnothing : ∀ p ∈ exhaustedAt 2 [], c.Sees p ∧ c.position < p := fun _ h => nomatch h
    have hargs := fun {name rest} (h : NameAhead c.ahead name rest) =>
      sweepsList_arguments h fun d hd => ih _ hd d rfl
    have hbehind := fun {name rest} (h : NameAhead c.ahead name rest) p hp =>
      behind_of_argumentsAt h ((hargs h).sees p hp)
    have hcase := evaluation_expression c
    generalize expression c = r at hcase
    cases hcase with
    | boolean h => exact sweeps_of_silent rfl
    | number h =>
      have hend := position_lt_forward h.eq_append h.isNumeral.length_pos
      exact sweeps_ok .nil hnothing hend fun _ h => nomatch h
    | fraction | outOfRange | noOpening | nothing => exact sweeps_refused .nil hnothing _
    | tooDeep => exact sweeps_error .nil hnothing _
    | fatalArgument h => exact sweeps_error (hargs h).once (hbehind h) _
    | noClosing h => exact sweeps_refused (hargs h).once (hbehind h) _
    | @call name _ h _ _ es n hes hc =>
      have hend := position_lt_closing hc
      refine sweeps_ok (hargs h).once (hbehind h) ?_ fun p hp => ?_
      · exact Nat.lt_trans (position_lt_argumentsAt h n) hend
      · exact Nat.lt_of_le_of_lt ((hargs h).le_end es _ hes hc p hp) hend

end Grammar

end Descent
