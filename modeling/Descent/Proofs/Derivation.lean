import Descent.Expression
import Descent.Proofs.Lexeme

/-!
# Written forms of expressions

`Derives d text e` says that `text` is a written form of `e` in which calls nest at most `d` deep.
The rules are those of a grammar, without order and without a place to read from, so nothing of how
the parser works is in them.

* `EndsBefore e rest` : what may stand behind a written form of `e` without becoming part of it;
* `callDepth` : how deep the calls of an expression nest, which is the least limit that its written
  forms keep to (`Derives.callDepth_le`, `Derives.of_callDepth_le`).
-/

namespace Descent

namespace Expression

mutual

/-- How deep calls are nested in an expression. -/
def callDepth : Expression → Nat
  | .number _ => 0
  | .boolean _ => 0
  | .call _ arguments => 1 + callDepths arguments

/-- The greatest of the depths, or zero if there is none. -/
def callDepths : List Expression → Nat
  | [] => 0
  | e :: es => max e.callDepth (callDepths es)

end

theorem callDepths_le {es : List Expression} {n : Nat} :
    callDepths es ≤ n ↔ ∀ e ∈ es, e.callDepth ≤ n := by
  induction es with
  | nil => simp [callDepths]
  | cons e es ih => rw [callDepths, Nat.max_le, ih, List.forall_mem_cons]

end Expression

namespace Grammar

/-- `text` is a written form of the expression in which calls nest at most `d` deep. The bounds on
numbers are those of 64 bits with a sign. -/
inductive Derives : (d : Nat) → (text : List Char) → Expression → Prop where
  | boolean (d : Nat) (b : Bool) : Derives d (keyword b) (.boolean b)
  | number (d : Nat) {sign digits : List Char} (h : IsNumeral sign digits)
    (hl : -9223372036854775808 ≤ numeralValue sign digits)
    (hg : numeralValue sign digits ≤ 9223372036854775807) :
    Derives d (sign ++ digits) (.number (numeralValue sign digits))
  | call {d : Nat} {name : List Char} {written : List (List Char × Expression)} (hn : IsName name)
    (hk : ∀ b, ¬ keyword b <+: name) (ha : ∀ a ∈ written, Derives d a.1 a.2) :
    Derives (d + 1) (name ++ ['('] ++ [','].intercalate (written.map Prod.fst) ++ [')'])
      (.call (String.ofList name) (written.map Prod.snd))

/-- A number goes on with a further digit, and is refused with a decimal point behind it. All other
expressions end where they end, whatever follows. -/
def EndsBefore (e : Expression) (rest : List Char) : Prop :=
  ∀ v, e = .number v → ∀ c, rest.head? = some c → c.isDigit = false ∧ c ≠ '.'

theorem endsBefore_nil (e : Expression) : EndsBefore e [] := fun _ _ _ h => nomatch h

theorem endsBefore_cons (e : Expression) {c : Char} (rest : List Char) (hd : c.isDigit = false)
    (hp : c ≠ '.') : EndsBefore e (c :: rest) := by
  rintro v - c' hc
  obtain rfl : c = c' := by simpa using hc
  exact ⟨hd, hp⟩

theorem EndsBefore.stops {v : Int} {rest : List Char} (h : EndsBefore (.number v) rest) :
    Stops Char.isDigit rest :=
  fun c hc => (h v rfl c hc).1

theorem EndsBefore.head_ne {v : Int} {rest : List Char} (h : EndsBefore (.number v) rest) :
    rest.head? ≠ some '.' :=
  fun hp => (h v rfl '.' hp).2 rfl

/-- The elements of a list with a comma between them are the first one, and each other one with a
comma in front of it. -/
theorem intercalate_cons (first : List Char) (others : List (List Char)) :
    [','].intercalate (first :: others) = first ++ others.flatMap (',' :: ·) := by
  induction others generalizing first with
  | nil => simp
  | cons second others ih =>
    rw [List.intercalate_cons_cons, ih]
    simp

theorem keyword_length_pos (b : Bool) : 0 < (keyword b).length := by
  cases b <;> decide

theorem Derives.length_pos {d : Nat} {text : List Char} {e : Expression} (h : Derives d text e) :
    0 < text.length := by
  cases h with
  | boolean d b => exact keyword_length_pos b
  | number d h => exact h.length_pos
  | call hn hk ha =>
    simp only [List.length_append, List.length_singleton]
    omega

/-! ## Depth -/

theorem Derives.callDepth_le {d : Nat} {text : List Char} {e : Expression} (h : Derives d text e) :
    e.callDepth ≤ d := by
  induction h with
  | boolean d b => exact Nat.zero_le _
  | number d h => exact Nat.zero_le _
  | @call d name written hn hk ha ih =>
    have hmax : Expression.callDepths (written.map Prod.snd) ≤ d := by
      rw [Expression.callDepths_le]
      intro e he
      obtain ⟨a, ha, rfl⟩ := List.mem_map.1 he
      exact ih a ha
    rw [Expression.callDepth]
    omega

/-- A written form keeps to every limit that the expression keeps to. -/
theorem Derives.of_callDepth_le {d : Nat} {text : List Char} {e : Expression} (h : Derives d text e)
    {d' : Nat} (hd : e.callDepth ≤ d') : Derives d' text e := by
  induction h generalizing d' with
  | boolean d b => exact .boolean d' b
  | number d h hl hg => exact .number d' h hl hg
  | @call d name written hn hk ha ih =>
    rw [Expression.callDepth] at hd
    obtain ⟨d', rfl⟩ : ∃ k, d' = k + 1 := ⟨d' - 1, by omega⟩
    have hmax : Expression.callDepths (written.map Prod.snd) ≤ d' := by omega
    rw [Expression.callDepths_le] at hmax
    exact .call hn hk fun a ha => ih a ha (hmax a.2 (List.mem_map_of_mem ha))

end Grammar

end Descent
