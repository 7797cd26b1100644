import Descent.Parser.Choice
import Descent.Parser.Sequence

/-!
# Where an outcome comes from

A construct succeeds or fails because its parts do. This module says which outcomes of the parts an
outcome of the whole goes back to, so that later proofs need not open the constructs again.

* `Run.andThen_ok`, `Run.andThen_error` : two runs one after the other, and with them every
  sequence;
* `literal_of_isPrefix`, `descend_of_lt`, `nested_of_lt` and their opposites : single steps;
* `tryEach_ok`, `choice_ok` : a choice succeeds as one of its alternatives does.
-/

namespace Descent

variable {α β γ : Type}

namespace Run

@[simp] theorem result_after (r : Run α) (t : Trace) : (r.after t).result = r.result := rfl

@[simp] theorem result_succeed (a : α) (c : Cursor) : (succeed a c).result = .ok (a, c) := rfl

@[simp] theorem result_fail (f : Failure) : (fail f : Run α).result = .error f := rfl

@[simp] theorem result_silent (o : Outcome α) : (silent o).result = o := rfl

theorem after_after (r : Run α) (t u : Trace) : (r.after t).after u = r.after (u ++ t) :=
  congrArg (Run.mk r.result) (List.append_assoc u t r.trace).symm

theorem map_after (r : Run α) (t : Trace) (g : α → β) : (r.after t).map g = (r.map g).after t := rfl

theorem map_map (r : Run α) (g : α → β) (h : β → γ) : (r.map g).map h = r.map (h ∘ g) := by
  obtain ⟨result, trace⟩ := r
  cases result <;> rfl

theorem map_id (r : Run α) : r.map id = r := by
  obtain ⟨result, trace⟩ := r
  cases result <;> rfl

theorem map_ok {r : Run α} {g : α → β} {b : β} {c : Cursor} :
    (r.map g).result = .ok (b, c) ↔ ∃ a, r.result = .ok (a, c) ∧ g a = b := by
  unfold map
  cases h : r.result with
  | error f => simp [Except.map]
  | ok x =>
    obtain ⟨a, c'⟩ := x
    simp only [Except.map, Except.ok.injEq, Prod.mk.injEq]
    constructor
    · rintro ⟨rfl, rfl⟩
      exact ⟨a, ⟨rfl, rfl⟩, rfl⟩
    · rintro ⟨a', ⟨rfl, rfl⟩, rfl⟩
      exact ⟨rfl, rfl⟩

theorem map_error {r : Run α} {g : α → β} {f : Failure} :
    (r.map g).result = .error f ↔ r.result = .error f := by
  unfold map
  cases r.result <;> simp [Except.map]

theorem mapFailure_of_ok {r : Run α} {x : α × Cursor} (h : r.result = .ok x)
    (g : Failure → Failure) : r.mapFailure g = { result := .ok x, trace := r.trace } := by
  unfold mapFailure
  rw [h]
  rfl

theorem mapFailure_of_error {r : Run α} {f : Failure} (h : r.result = .error f)
    (g : Failure → Failure) : r.mapFailure g = { result := .error (g f), trace := r.trace } := by
  unfold mapFailure
  rw [h]
  rfl

theorem mapFailure_ok {r : Run α} {g : Failure → Failure} {a : α} {c : Cursor} :
    (r.mapFailure g).result = .ok (a, c) ↔ r.result = .ok (a, c) := by
  cases h : r.result with
  | error f => simp [mapFailure_of_error h]
  | ok x => simp [mapFailure_of_ok h]

theorem mapFailure_error {r : Run α} {g : Failure → Failure} {f : Failure} :
    (r.mapFailure g).result = .error f ↔ ∃ f', r.result = .error f' ∧ g f' = f := by
  cases h : r.result with
  | error f => simp [mapFailure_of_error h]
  | ok x => simp [mapFailure_of_ok h]

theorem andThen_of_ok {r : Run α} {a : α} {c : Cursor} (h : r.result = .ok (a, c))
    (next : α → Cursor → Run β) : r.andThen next = (next a c).after r.trace := by
  unfold andThen
  rw [h]

theorem andThen_of_error {r : Run α} {f : Failure} (h : r.result = .error f)
    (next : α → Cursor → Run β) : r.andThen next = { result := .error f, trace := r.trace } := by
  unfold andThen
  rw [h]

theorem andThen_ok {r : Run α} {next : α → Cursor → Run β} {b : β} {c : Cursor} :
    (r.andThen next).result = .ok (b, c) ↔
      ∃ a d, r.result = .ok (a, d) ∧ (next a d).result = .ok (b, c) := by
  constructor
  · intro h
    cases hr : r.result with
    | error f =>
      rw [andThen_of_error hr] at h
      cases h
    | ok x =>
      rw [andThen_of_ok hr] at h
      exact ⟨x.1, x.2, rfl, h⟩
  · rintro ⟨a, d, hr, h⟩
    rw [andThen_of_ok hr]
    exact h

theorem andThen_error {r : Run α} {next : α → Cursor → Run β} {f : Failure} :
    (r.andThen next).result = .error f ↔
      r.result = .error f ∨ ∃ a d, r.result = .ok (a, d) ∧ (next a d).result = .error f := by
  constructor
  · intro h
    cases hr : r.result with
    | error g =>
      rw [andThen_of_error hr] at h
      cases h
      exact .inl rfl
    | ok x =>
      rw [andThen_of_ok hr] at h
      exact .inr ⟨x.1, x.2, rfl, h⟩
  · rintro (hr | ⟨a, d, hr, h⟩)
    · rw [andThen_of_error hr]
    · rw [andThen_of_ok hr]
      exact h

end Run

/-! ## Single steps -/

namespace Cursor

variable {s : String} {c : Cursor}

theorem matchLiteral_of_isPrefix (h : s.toList <+: c.ahead) :
    c.matchLiteral s = .ok (s, c.forward s.toList.length) := by
  rw [matchLiteral, if_pos (List.isPrefixOf_iff_prefix.2 h)]

theorem matchLiteral_of_not_isPrefix (h : ¬ s.toList <+: c.ahead) :
    c.matchLiteral s = .error { expected := s, position := c.position } := by
  rw [matchLiteral, if_neg fun hp => h (List.isPrefixOf_iff_prefix.1 hp)]

end Cursor

namespace Parser

theorem literal_of_isPrefix {s : String} {c : Cursor} (h : s.toList <+: c.ahead) :
    literal s c = .succeed s (c.forward s.toList.length) :=
  congrArg Run.silent (Cursor.matchLiteral_of_isPrefix h)

theorem literal_of_not_isPrefix {s : String} {c : Cursor} (h : ¬ s.toList <+: c.ahead) :
    literal s c = .fail { expected := s, position := c.position } :=
  congrArg Run.silent (Cursor.matchLiteral_of_not_isPrefix h)

theorem descend_of_lt {c : Cursor} (h : c.depth < c.maxDepth) :
    descend c = .succeed () { c with depth := c.depth + 1 } := by
  rw [descend, Cursor.descend, if_neg (by omega)]
  rfl

theorem descend_of_le {c : Cursor} (h : c.maxDepth ≤ c.depth) :
    descend c = .fail
      { expected := "nesting depth of at most " ++ toString c.maxDepth
        position := c.position
        fatal := true } := by
  rw [descend, Cursor.descend, if_pos h]
  rfl

theorem nested_of_lt {c : Cursor} (h : c.depth < c.maxDepth) (p : Parser α) :
    nested p c =
      (p { c with depth := c.depth + 1 }).andThen fun a d => .succeed a d.ascend := by
  rw [nested, descend_of_lt h, Run.andThen_of_ok rfl]
  rfl

/-! ## Choices -/

theorem tryEach_of_error {n : Nat} {p : Parser α} {ps : List (Parser α)} {best : Option Failure}
    {c : Cursor} {f : Failure} (h : (p c).result = .error f) (hf : f.fatal = false) :
    tryEach n (p :: ps) best c = (tryEach n ps (some (furthest best f)) c).after (p c).trace := by
  simp only [tryEach, h, hf, Bool.false_eq_true, if_false]

theorem tryEach_of_fatal {n : Nat} {p : Parser α} {ps : List (Parser α)} {best : Option Failure}
    {c : Cursor} {f : Failure} (h : (p c).result = .error f) (hf : f.fatal = true) :
    tryEach n (p :: ps) best c = p c := by
  simp only [tryEach, h, hf, if_true]

theorem tryEach_of_ok {n : Nat} {p : Parser α} {ps : List (Parser α)} {best : Option Failure}
    {c : Cursor} {x : α × Cursor} (h : (p c).result = .ok x) :
    tryEach n (p :: ps) best c = p c := by
  simp only [tryEach, h]

theorem tryEach_ok {n : Nat} {ps : List (Parser α)} {best : Option Failure} {c c' : Cursor} {a : α}
    (h : (tryEach n ps best c).result = .ok (a, c')) : ∃ p ∈ ps, (p c).result = .ok (a, c') := by
  induction ps generalizing best with
  | nil => cases h
  | cons p ps ih =>
    simp only [tryEach] at h
    split at h
    · exact ⟨p, List.mem_cons_self, h⟩
    · split at h
      · exact ⟨p, List.mem_cons_self, h⟩
      · obtain ⟨q, hq, hc⟩ := ih h
        exact ⟨q, List.mem_cons_of_mem _ hq, hc⟩

theorem choice_ok {ps : List (Parser α)} {c c' : Cursor} {a : α}
    (h : (choice ps c).result = .ok (a, c')) : ∃ p ∈ ps, (p c).result = .ok (a, c') :=
  tryEach_ok h

end Parser

end Descent
