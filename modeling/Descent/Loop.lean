/-!
# Loops

A loop does its body again and again until the body is done. Nothing says that it ever is, so a loop
has an answer only if it ends, and what is known of loops is known of the runs that end.

* `Runs body s states t` : the loop goes from `s` through `states` and ends with `t`. Proofs about
  loops are inductions over this;
* `loop body s` : the answer of the loop, and `none` if it never ends (`loop_eq_some_iff`). The type of
  `answer` says so, whence the recursion needs no measure;
* `exists_runs` : a loop ends if an invariant of its states makes a variant smaller in every pass;
* `rel_loop` : loops whose bodies go in step end in the same way or not at all;
* `passes body s` : the states that the loop goes through.
-/

namespace Descent

/-- What the body of a loop comes to: the state to go on in, or the answer of the loop. -/
inductive Pass (σ τ : Type) where
  | again (s : σ)
  | done (t : τ)

variable {σ σ' τ τ' : Type}

/-- The loop does its body in `s` and in all the rest of the list, and is done with `t`. -/
inductive Runs (body : σ → Pass σ τ) : (s : σ) → (states : List σ) → (t : τ) → Prop where
  | done {s : σ} {t : τ} (h : body s = .done t) : Runs body s [s] t
  | again {s s' : σ} {states : List σ} {t : τ} (h : body s = .again s')
    (hr : Runs body s' states t) : Runs body s (s :: states) t

section
variable {body : σ → Pass σ τ} {s s' : σ} {t t' : τ} {states states' : List σ}

theorem Runs.unique (h : Runs body s states t) (h' : Runs body s states' t') :
    states = states' ∧ t = t' := by
  induction h generalizing states' with
  | done h =>
    cases h' with
    | done h' =>
      rw [h] at h'
      cases h'
      exact ⟨rfl, rfl⟩
    | again h' =>
      rw [h] at h'
      cases h'
  | again h _ ih =>
    cases h' with
    | done h' =>
      rw [h] at h'
      cases h'
    | again h' hr =>
      rw [h] at h'
      cases h'
      obtain ⟨rfl, rfl⟩ := ih hr
      exact ⟨rfl, rfl⟩

/-- Only what the body does in the states of the run matters. -/
theorem Runs.congr {body' : σ → Pass σ τ} (h : Runs body s states t)
    (hbody : ∀ s ∈ states, body' s = body s) : Runs body' s states t := by
  induction h with
  | done h => exact .done ((hbody _ List.mem_cons_self).trans h)
  | again h _ ih =>
    obtain ⟨hfirst, hrest⟩ := List.forall_mem_cons.1 hbody
    exact .again (hfirst.trans h) (ih hrest)

theorem exists_runs_done_iff (h : body s = .done t) :
    (∃ states, Runs body s states t') ↔ t = t' := by
  constructor
  · rintro ⟨states, hr⟩
    exact (Runs.unique (.done h) hr).2
  · rintro rfl
    exact ⟨[s], .done h⟩

theorem exists_runs_again_iff (h : body s = .again s') :
    (∃ states, Runs body s states t) ↔ ∃ states, Runs body s' states t := by
  constructor
  · rintro ⟨states, hr⟩
    cases hr with
    | done h' =>
      rw [h] at h'
      cases h'
    | again h' hr =>
      rw [h] at h'
      cases h'
      exact ⟨_, hr⟩
  · rintro ⟨states, hr⟩
    exact ⟨s :: states, .again h hr⟩

end

/-! ## The answer of a loop -/

/-- What the loop comes to from `s`, if it ends. -/
def Answer (body : σ → Pass σ τ) (s : σ) : Type :=
  { answer : Option τ // ∀ t, answer = some t ↔ ∃ states, Runs body s states t }

instance (body : σ → Pass σ τ) (s : σ) : Nonempty (Answer body s) := by
  by_cases h : ∃ t states, Runs body s states t
  · obtain ⟨t, states, hr⟩ := h
    refine ⟨some t, fun t' => ⟨fun ht => ?_, fun ⟨states', hr'⟩ => ?_⟩⟩
    · cases ht
      exact ⟨states, hr⟩
    · rw [(hr.unique hr').2]
  · exact ⟨none, fun t => ⟨fun ht => (nomatch ht), fun hr => absurd ⟨t, hr⟩ h⟩⟩

def answer (body : σ → Pass σ τ) : (s : σ) → Answer body s :=
  WellFounded.partialExtrinsicFix (fun s' s => body s = .again s') fun s rest =>
    match h : body s with
    | .again s' => ⟨(rest s' h).1, fun t => ((rest s' h).2 t).trans (exists_runs_again_iff h).symm⟩
    | .done t => ⟨some t, fun _ => Option.some_inj.trans (exists_runs_done_iff h).symm⟩

/-- Does `body` until it is done. -/
def loop (body : σ → Pass σ τ) (s : σ) : Option τ := (answer body s).1

section
variable {body : σ → Pass σ τ} {s s' : σ} {t : τ} {states : List σ}

theorem loop_eq_some_iff : loop body s = some t ↔ ∃ states, Runs body s states t :=
  (answer body s).2 t

theorem loop_eq_none_iff : loop body s = none ↔ ∀ states t, ¬ Runs body s states t := by
  simp only [Option.eq_none_iff_forall_ne_some, ne_eq, loop_eq_some_iff, not_exists]
  exact ⟨fun h states t => h t states, fun h t states => h states t⟩

theorem Runs.loop_eq (h : Runs body s states t) : loop body s = some t :=
  loop_eq_some_iff.2 ⟨states, h⟩

theorem loop_of_done (h : body s = .done t) : loop body s = some t := (Runs.done h).loop_eq

theorem loop_of_again (h : body s = .again s') : loop body s = loop body s' := by
  refine Option.ext fun t => ?_
  rw [loop_eq_some_iff, loop_eq_some_iff, exists_runs_again_iff h]

/-- A loop ends if every pass keeps the invariant and makes the variant smaller. -/
theorem exists_runs (invariant : σ → Prop) (variant : σ → Nat)
    (hpass : ∀ s s', invariant s → body s = .again s' → invariant s' ∧ variant s' < variant s)
    (hs : invariant s) : ∃ states t, Runs body s states t := by
  induction hn : variant s using Nat.strongRecOn generalizing s with
  | ind n ih =>
    subst hn
    cases hb : body s with
    | done t => exact ⟨[s], t, .done hb⟩
    | again s' =>
      obtain ⟨hs', hless⟩ := hpass s s' hs hb
      obtain ⟨states, t, hr⟩ := ih _ hless hs' rfl
      exact ⟨s :: states, t, .again hb hr⟩

end

/-! ## Two loops -/

/-- The bodies do the same: both go on, in states that belong together, or both are done. -/
inductive Pass.Rel (R : σ → σ' → Prop) (S : τ → τ' → Prop) : Pass σ τ → Pass σ' τ' → Prop where
  | again {s : σ} {s' : σ'} (h : R s s') : Rel R S (.again s) (.again s')
  | done {t : τ} {t' : τ'} (h : S t t') : Rel R S (.done t) (.done t')

section
variable {body : σ → Pass σ τ} {body' : σ' → Pass σ' τ'} {R : σ → σ' → Prop} {S : τ → τ' → Prop}
  {s : σ} {s' : σ'} {t : τ} {states : List σ}

theorem Pass.Rel.flip {x : Pass σ τ} {y : Pass σ' τ'} (h : Pass.Rel R S x y) :
    Pass.Rel (fun s' s => R s s') (fun t' t => S t t') y x := by
  cases h with
  | again h => exact .again h
  | done h => exact .done h

/-- A run of the one loop belongs to a run of the other. -/
theorem Runs.rel (hpass : ∀ s s', R s s' → Pass.Rel R S (body s) (body' s'))
    (h : Runs body s states t) (hs : R s s') : ∃ states' t', Runs body' s' states' t' ∧ S t t' := by
  induction h generalizing s' with
  | @done s t h =>
    have hstep := hpass s s' hs
    rw [h] at hstep
    cases hb : body' s' with
    | again b =>
      rw [hb] at hstep
      cases hstep
    | done t' =>
      rw [hb] at hstep
      cases hstep with
      | done ht => exact ⟨[s'], t', .done hb, ht⟩
  | @again s a states t h _ ih =>
    have hstep := hpass s s' hs
    rw [h] at hstep
    cases hb : body' s' with
    | done t' =>
      rw [hb] at hstep
      cases hstep
    | again b =>
      rw [hb] at hstep
      cases hstep with
      | again hab =>
        obtain ⟨states', t', hr, ht⟩ := ih hab
        exact ⟨s' :: states', t', .again hb hr, ht⟩

/-- Loops that do the same in every pass end in the same way or not at all. -/
theorem rel_loop (hpass : ∀ s s', R s s' → Pass.Rel R S (body s) (body' s')) (hs : R s s') :
    Option.Rel S (loop body s) (loop body' s') := by
  cases ha : loop body s with
  | some t =>
    obtain ⟨states, hr⟩ := loop_eq_some_iff.1 ha
    obtain ⟨states', t', hr', ht⟩ := hr.rel hpass hs
    rw [hr'.loop_eq]
    exact .some ht
  | none =>
    cases hb : loop body' s' with
    | none => exact .none
    | some t' =>
      -- then this run belongs to one of the first loop, which has none
      obtain ⟨states', hr'⟩ := loop_eq_some_iff.1 hb
      obtain ⟨states, t, hr, -⟩ := hr'.rel (fun s' s hs => (hpass s s' hs).flip) hs
      exact absurd hr (loop_eq_none_iff.1 ha states t)

end

/-! ## The states of a loop -/

/-- Does the same as `body`, and writes down the states in which it is done. -/
def recording (body : σ → Pass σ τ) (s : List σ × σ) : Pass (List σ × σ) (List σ) :=
  match body s.2 with
  | .again s' => .again (s.1 ++ [s.2], s')
  | .done _ => .done (s.1 ++ [s.2])

/-- The states in which the loop does its body, if it ends. -/
def passes (body : σ → Pass σ τ) (s : σ) : Option (List σ) := loop (recording body) ([], s)

section
variable {body : σ → Pass σ τ} {s : σ} {t : τ} {states : List σ}

theorem Runs.recording (h : Runs body s states t) (past : List σ) :
    ∃ recorded, Runs (recording body) (past, s) recorded (past ++ states) := by
  induction h generalizing past with
  | @done s t h => exact ⟨[(past, s)], .done (by simp only [Descent.recording, h])⟩
  | @again s s' states t h _ ih =>
    obtain ⟨recorded, hr⟩ := ih (past ++ [s])
    rw [List.append_assoc, List.singleton_append] at hr
    exact ⟨(past, s) :: recorded, .again (by simp only [Descent.recording, h]) hr⟩

theorem Runs.passes_eq (h : Runs body s states t) : passes body s = some states := by
  obtain ⟨recorded, hr⟩ := h.recording []
  exact hr.loop_eq

theorem passes_eq_none_iff : passes body s = none ↔ ∀ states t, ¬ Runs body s states t := by
  constructor
  · intro h states t hr
    rw [hr.passes_eq] at h
    cases h
  · intro h
    refine loop_eq_none_iff.2 fun recorded states hr => ?_
    -- without its notes the recording loop is the loop itself
    have hpass : ∀ (a : List σ × σ) (b : σ), a.2 = b →
        Pass.Rel (fun a b => a.2 = b) (fun _ _ => True) (recording body a) (body b) := by
      rintro a b rfl
      rw [Descent.recording]
      cases body a.2 with
      | again s' => exact .again rfl
      | done t => exact .done trivial
    obtain ⟨states', t, hr', -⟩ := hr.rel hpass rfl
    exact h states' t hr'

end

end Descent
