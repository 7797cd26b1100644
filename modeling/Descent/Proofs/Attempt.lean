import Descent.Parse
import Descent.Proofs.History
import Descent.Proofs.Sweep
import Mathlib.Data.List.Perm.Subperm

/-!
# How often expressions are looked for

`evaluations c` lists the places at which expressions are looked for in a run of the grammar, in the
order in which it happens. For each of them that does not start with a truth value the run tells of
one attempt (`tells_expression`). Since no place is attempted twice, a text of `n` characters has room
for no more than `n + 1` of them (`parseWith_attempts`).
-/

namespace Descent

open Descent.Cursor

namespace Grammar

open Descent.Parser

/-- The text ahead starts with `true` or `false`. -/
def keywordAhead (c : Cursor) : Bool :=
  (keyword true).isPrefixOf c.ahead || (keyword false).isPrefixOf c.ahead

theorem keywordAhead_iff {c : Cursor} : keywordAhead c = true ↔ ∃ b, keyword b <+: c.ahead := by
  simp only [keywordAhead, Bool.or_eq_true, List.isPrefixOf_iff_prefix, Bool.exists_bool, or_comm]

/-- Where arguments are looked for in a run of a call, and what happens there. -/
def evaluationsInCall (argument : Parser Expression) (within : Cursor → List Cursor)
    (c : Cursor) : List Cursor :=
  (identifier c).onwards fun d => (Parser.descend d).onwards fun d =>
    (literal "(" d).onwards (listHistory (fun _ => []) (literal ",") (fun _ => []) argument within)

/-- Where expressions are looked for in a run of the grammar's choice: where it starts, and in the
arguments of a call if it comes to one. -/
def evaluationsOf (argument : Parser Expression) (within : Cursor → List Cursor) (c : Cursor) :
    List Cursor :=
  c :: tryHistory (fun _ => []) c
    [(boolean.map Expression.boolean, fun _ => []),
      (number.map Expression.number, fun _ => []),
      ((callOf argument).map Expression.ofCall, evaluationsInCall argument within)] none

/-- The cursors at which expressions are looked for in a run of `expression`, in order. -/
def evaluations : Cursor → List Cursor := fixHistory expressionOf evaluationsOf

/-- Where an attempt is told of when an expression is looked for at `c`. -/
def attemptsAt (c : Cursor) : List Nat := if keywordAhead c then [] else [c.position]

section
variable {sel : Event → Option Nat} {f : Cursor → List Nat}

theorem tells_number : Tells sel f number fun _ => [] := by
  intro c
  unfold number
  split
  · rfl
  · dsimp only
    split
    · rfl
    · split
      · rfl
      · split
        · rfl
        · rfl

theorem tells_identifier : Tells sel f identifier fun _ => [] := by
  intro c
  unfold identifier
  split
  · split
    · rfl
    · rfl
  · rfl

theorem tells_callOf {p : Parser Expression} {within : Cursor → List Cursor}
    (hp : Tells sel f p within) : Tells sel f (callOf p) (evaluationsInCall p within) := by
  have hlist : Tells sel f (separatedList (literal ",") p)
      (listHistory (fun _ => []) (literal ",") (fun _ => []) p within) :=
    tells_separatedList (fun _ => rfl) (tells_literal ",") hp
  have hbracket := tells_bracket (tells_literal "(") hlist (tells_literal ")")
  have hcall := tells_both tells_identifier (tells_nested tells_descend hbracket)
  intro c
  rw [callOf, hcall c]
  simp [evaluationsInCall]

end

theorem flatMap_attemptsAt (cs : List Cursor) :
    cs.flatMap attemptsAt = (cs.filter fun c => !keywordAhead c).map position := by
  induction cs with
  | nil => rfl
  | cons c cs ih =>
    rw [List.flatMap_cons, ih, attemptsAt]
    by_cases h : keywordAhead c <;> simp [h]

theorem tells_expressionOf {p : Parser Expression} {within : Cursor → List Cursor}
    (hp : Tells (Event.exhausted? 2) attemptsAt p within) :
    Tells (Event.exhausted? 2) attemptsAt (expressionOf p) (evaluationsOf p within) := by
  intro c
  rw [evaluationsOf, List.flatMap_cons]
  by_cases hk : ∃ b, keyword b <+: c.ahead
  · obtain ⟨b, h⟩ := hk
    have hb : (boolean.map Expression.boolean c).result =
        .ok (.boolean b, c.forward (keyword b).length) := by
      rw [Parser.map, boolean_of_isPrefix h]
      rfl
    rw [expressionOf_of_keyword h, tryHistory_of_ok hb, attemptsAt,
      if_pos (keywordAhead_iff.2 ⟨b, h⟩)]
    rfl
  · have hb := boolean_map_of_not_isPrefix fun b h => hk ⟨b, h⟩
    have hresult : (boolean.map Expression.boolean c).result = .error _ := congrArg Run.result hb
    have hlast : ∀ best, (exhausted 3 best c : Run Expression).trace.filterMap
        (Event.exhausted? 2) = ([] : List Cursor).flatMap attemptsAt := fun _ => rfl
    have hrest : ∀ x ∈ [(number.map Expression.number, fun _ => []),
        ((callOf p).map Expression.ofCall, evaluationsInCall p within)],
        Tells (Event.exhausted? 2) attemptsAt x.1 x.2 := by
      refine List.forall_mem_cons.2 ⟨tells_map tells_number _, ?_⟩
      exact List.forall_mem_singleton.2 (tells_map (tells_callOf hp) _)
    rw [tryHistory_of_error hresult rfl, List.nil_append, ← tells_tryEach hlast hrest,
      expressionOf, choice, tryEach_of_error hresult rfl, hb, attemptsAt,
      if_neg fun h => hk (keywordAhead_iff.1 h)]
    rfl

theorem tells_expression : Tells (Event.exhausted? 2) attemptsAt expression evaluations :=
  tells_fix fun _ _ => tells_expressionOf

end Grammar

/-! ## Parsing a text -/

/-- The event that a record holds. -/
def Record.event? : Record → Option Event
  | .event e => some e
  | _ => none

/-- The events of the journal, in order. -/
def Parse.told (p : Parse) : Trace := p.journal.filterMap Record.event?

open Descent.Grammar

theorem told_parseWith (options : Options) (text : String) :
    (parseWith options text).told = (expression (atStart text options.maxDepth)).trace := by
  have hevents : ∀ t : Trace, (t.map Record.event).filterMap Record.event? = t := by
    intro t
    rw [List.filterMap_map]
    exact List.filterMap_some
  simp only [parseWith, Parse.told]
  cases (expression (atStart text options.maxDepth)).result with
  | error f => simp [hevents, Record.event?]
  | ok found =>
    obtain ⟨e, c⟩ := found
    simp only [Parse.settle]
    cases c.atEnd <;> cases options.mode <;> simp [hevents, Record.event?]

/-! ## How many places there are -/

/-- A boundary lies behind some number of whole characters. -/
theorem Text.Boundary.exists_take {s : String} {n : Nat} (h : Text.Boundary s n) :
    ∃ k ≤ s.length, n = Text.byteLength (s.toList.take k) := by
  obtain ⟨front, back, rfl, hn⟩ := String.Pos.Raw.isValid_iff_exists_append.1 h
  refine ⟨front.length, ?_, ?_⟩
  · rw [String.length_append]
    omega
  · have hfront : (front ++ back).toList.take front.length = front.toList := by
      rw [String.toList_append, ← String.length_toList, List.take_left]
    rw [hfront, Text.byteLength_toList]
    exact congrArg String.Pos.Raw.byteIdx hn

/-- A text has no more boundaries than one in front of each character and one at its end. -/
theorem Text.length_boundaries_le {s : String} {ps : List Nat} (hinc : ps.Pairwise (· < ·))
    (hps : ∀ p ∈ ps, Text.Boundary s p) : ps.length ≤ s.length + 1 := by
  have hnodup : ps.Nodup := hinc.imp Nat.ne_of_lt
  have hsub : ps ⊆ (List.range (s.length + 1)).map fun k => Text.byteLength (s.toList.take k) := by
    intro p hp
    obtain ⟨k, hk, rfl⟩ := (hps p hp).exists_take
    exact List.mem_map_of_mem (List.mem_range.2 (by omega))
  have hle := (hnodup.subperm hsub).length_le
  rwa [List.length_map, List.length_range] at hle

/-- **In every parse the places where an expression is looked for that is no truth value are tried
from left to right, each once. So there are no more of them than characters, and one.** -/
theorem parseWith_attempts (options : Options) (text : String) :
    let told := (parseWith options text).told
    let places := (evaluations (atStart text options.maxDepth)).filter fun c => !keywordAhead c
    exhaustedAt 2 told = places.map position ∧ AttemptedOnce told ∧
      places.length ≤ text.length + 1 := by
  intro told places
  have hsweeps := sweeps_expression (atStart text options.maxDepth)
  have htold : told = (expression (atStart text options.maxDepth)).trace := told_parseWith options text
  have hplaces : exhaustedAt 2 told = places.map position := by
    rw [htold, exhaustedAt, tells_expression, flatMap_attemptsAt]
  have honce : AttemptedOnce told := htold ▸ hsweeps.once
  refine ⟨hplaces, honce, ?_⟩
  have hboundary : ∀ p ∈ exhaustedAt 2 told, Text.Boundary text p := by
    intro p hp
    have hb := (hsweeps.sees p (htold ▸ hp)).boundary
    rwa [text_atStart] at hb
  have hle := Text.length_boundaries_le honce.increasing hboundary
  rwa [hplaces, List.length_map] at hle

end Descent
