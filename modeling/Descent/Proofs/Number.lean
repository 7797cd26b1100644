import Mathlib.Algebra.Group.Int.Defs
import Mathlib.Logic.ExistsUnique
import Descent.Proofs.Production

/-!
# Numbers are read exactly

A number is read as far as its digits go, and then has the value that the sign and the digits stand for,
however many there are. It is given only if it fits into 64 bits with a sign, and is refused
otherwise, so no value is ever cut down to one that fits (`number_exact`).

* `LongestNumeral cs sign digits` : of the numerals at the front of `cs` none is longer. It is the one
  that ends where the digits end (`longestNumeral_iff`).
-/

namespace Descent

namespace Grammar

variable {cs sign digits : List Char} {c : Cursor}

/-! ## The longest numeral -/

/-- The sign and the digits are a numeral at the front of the text, and none there is longer. -/
structure LongestNumeral (cs sign digits : List Char) : Prop where
  isNumeral : IsNumeral sign digits
  isPrefix : sign ++ digits <+: cs
  longest : ∀ sign' digits', IsNumeral sign' digits' → sign' ++ digits' <+: cs →
    (sign' ++ digits').length ≤ (sign ++ digits).length

theorem IsNumeral.append_digits (h : IsNumeral sign digits) {more : List Char}
    (hmore : ∀ d ∈ more, d.isDigit = true) : IsNumeral sign (digits ++ more) :=
  ⟨h.sign_mem, List.append_ne_nil_of_left_ne_nil h.digits_ne_nil more,
    List.forall_mem_append.2 ⟨h.isDigit, hmore⟩⟩

/-- Every numeral at the front of a text grows into one that stops. -/
theorem IsNumeral.exists_numeralAhead (h : IsNumeral sign digits) (hc : sign ++ digits <+: cs) :
    ∃ more rest, NumeralAhead cs sign (digits ++ more) rest := by
  obtain ⟨behind, rfl⟩ := hc
  refine ⟨behind.takeWhile Char.isDigit, behind.dropWhile Char.isDigit, ?_, ?_, ?_⟩
  · exact h.append_digits fun d hd => of_mem_takeWhile hd
  · exact stops_dropWhile _ _
  · simp only [List.append_assoc, List.takeWhile_append_dropWhile]

theorem longestNumeral_iff :
    LongestNumeral cs sign digits ↔ ∃ rest, NumeralAhead cs sign digits rest := by
  constructor
  · intro h
    obtain ⟨more, rest, hahead⟩ := h.isNumeral.exists_numeralAhead h.isPrefix
    have hle := h.longest _ _ hahead.isNumeral ⟨rest, hahead.eq_append.symm⟩
    have hnil : more = [] := by
      simp only [List.length_append] at hle
      exact List.length_eq_zero_iff.1 (by omega)
    rw [hnil, List.append_nil] at hahead
    exact ⟨rest, hahead⟩
  · rintro ⟨rest, h⟩
    refine ⟨h.isNumeral, ⟨rest, h.eq_append.symm⟩, fun sign' digits' hn hp => ?_⟩
    obtain ⟨more, rest', h'⟩ := hn.exists_numeralAhead hp
    obtain ⟨rfl, rfl, -⟩ := h.unique h'
    simp only [List.length_append]
    omega

theorem LongestNumeral.unique {sign' digits' : List Char} (h : LongestNumeral cs sign digits)
    (h' : LongestNumeral cs sign' digits') : sign' = sign ∧ digits' = digits := by
  obtain ⟨rest, hahead⟩ := longestNumeral_iff.1 h
  obtain ⟨rest', hahead'⟩ := longestNumeral_iff.1 h'
  obtain ⟨hsign, hdigits, -⟩ := hahead.unique hahead'
  exact ⟨hsign, hdigits⟩

/-- No numeral stands at the front of the text. -/
def NoNumeral (cs : List Char) : Prop :=
  ∀ sign digits, IsNumeral sign digits → ¬ sign ++ digits <+: cs

theorem NoNumeral.numeral_eq (h : NoNumeral cs) : numeral cs = none := by
  cases hn : numeral cs with
  | none => rfl
  | some found =>
    obtain ⟨hnumeral, rest, hcs, -⟩ := numeral_eq_some hn
    exact absurd ⟨rest, hcs.symm⟩ (h _ _ hnumeral)

theorem noNumeral_or_longestNumeral (cs : List Char) :
    NoNumeral cs ∨ ∃! m : List Char × List Char, LongestNumeral cs m.1 m.2 := by
  cases hn : numeral cs with
  | none => exact .inl fun sign digits h => not_isPrefix_of_numeral_eq_none hn h
  | some found =>
    obtain ⟨hnumeral, rest, hcs, hstops⟩ := numeral_eq_some hn
    have hlongest := longestNumeral_iff.2 ⟨rest, hnumeral, hstops, hcs⟩
    refine .inr ⟨found, hlongest, fun m hm => ?_⟩
    obtain ⟨hsign, hdigits⟩ := hlongest.unique hm
    exact Prod.ext hsign hdigits

/-! ## What is made of it -/

/-- The character behind the longest numeral is the one where its digits stop. -/
theorem LongestNumeral.exists_rest (h : LongestNumeral cs sign digits) :
    ∃ rest, NumeralAhead cs sign digits rest ∧ cs[(sign ++ digits).length]? = rest.head? := by
  obtain ⟨rest, hahead⟩ := longestNumeral_iff.1 h
  refine ⟨rest, hahead, ?_⟩
  rw [hahead.eq_append, List.getElem?_append_right (Nat.le_refl _), Nat.sub_self,
    List.head?_eq_getElem?]

section
variable (h : LongestNumeral c.ahead sign digits)
include h

theorem LongestNumeral.position_forward :
    (c.forward (sign ++ digits).length).position =
      c.position + Text.byteLength (sign ++ digits) :=
  (Cursor.between_of_isPrefix h.isPrefix).position_eq

theorem number_of_longest_point (hp : c.ahead[(sign ++ digits).length]? = some '.') :
    number c = .fail
      { expected := "integer without fractional part"
        position := c.position + Text.byteLength (sign ++ digits) } := by
  obtain ⟨rest, hahead, hrest⟩ := h.exists_rest
  rw [number_of_point hahead (hrest ▸ hp), h.position_forward]

theorem number_of_longest_in_range (hp : c.ahead[(sign ++ digits).length]? ≠ some '.')
    (hv : -2 ^ 63 ≤ numeralValue sign digits ∧ numeralValue sign digits ≤ 2 ^ 63 - 1) :
    number c = .succeed (numeralValue sign digits)
      (c.advance (Text.byteLength (sign ++ digits))) := by
  obtain ⟨rest, hahead, hrest⟩ := h.exists_rest
  rw [number_of_in_range hahead (hrest ▸ hp) hv.1 hv.2, Cursor.advance_byteLength h.isPrefix]

theorem number_of_longest_out_of_range (hp : c.ahead[(sign ++ digits).length]? ≠ some '.')
    (hv : ¬ (-2 ^ 63 ≤ numeralValue sign digits ∧ numeralValue sign digits ≤ 2 ^ 63 - 1)) :
    ∃ tail, number c = .fail
      { expected := "integer in i64 range" ++ tail
        position := c.position + Text.byteLength (sign ++ digits) } := by
  obtain ⟨rest, hahead, hrest⟩ := h.exists_rest
  have hout : numeralValue sign digits < least ∨ greatest < numeralValue sign digits := by
    unfold least greatest
    omega
  rw [← h.position_forward]
  exact number_of_out_of_range hahead (hrest ▸ hp) hout

end

/-- Whatever a number is refused for, another alternative may still be tried. -/
theorem fatal_of_number_error {f : Failure} (h : (number c).result = .error f) : f.fatal = false := by
  unfold number at h
  split at h
  · cases h
    rfl
  · dsimp only at h
    split at h
    · cases h
      rfl
    · split at h
      · cases h
        rfl
      · split at h
        · cases h
          rfl
        · cases h

/-- **A number is the value of the longest numeral ahead, if no point follows it and the value fits into
64 bits with a sign, and the cursor is then behind that numeral. Otherwise it is refused: where no numeral
is, at its place; else behind the numeral, on account of the point or of the range. No refusal is fatal.** -/
theorem number_exact (c : Cursor) :
    (NoNumeral c.ahead ∨ ∃! m : List Char × List Char, LongestNumeral c.ahead m.1 m.2) ∧
    (NoNumeral c.ahead →
      (number c).result = .error { expected := "number", position := c.position }) ∧
    (∀ sign digits, LongestNumeral c.ahead sign digits →
      (c.ahead[(sign ++ digits).length]? = some '.' →
        (number c).result = .error
          { expected := "integer without fractional part"
            position := c.position + Text.byteLength (sign ++ digits) }) ∧
      (c.ahead[(sign ++ digits).length]? ≠ some '.' →
        (-2 ^ 63 ≤ numeralValue sign digits ∧ numeralValue sign digits ≤ 2 ^ 63 - 1 →
          (number c).result = .ok (numeralValue sign digits,
            c.advance (Text.byteLength (sign ++ digits)))) ∧
        (¬ (-2 ^ 63 ≤ numeralValue sign digits ∧ numeralValue sign digits ≤ 2 ^ 63 - 1) →
          ∃ tail, (number c).result = .error
            { expected := "integer in i64 range" ++ tail
              position := c.position + Text.byteLength (sign ++ digits) }))) ∧
    ∀ f, (number c).result = .error f → f.fatal = false := by
  have hnone : NoNumeral c.ahead →
      (number c).result = .error { expected := "number", position := c.position } :=
    fun h => congrArg Run.result (number_of_none h.numeral_eq)
  refine ⟨noNumeral_or_longestNumeral c.ahead, hnone, fun sign digits h => ⟨fun hp => ?_, fun hp =>
    ⟨fun hv => ?_, fun hv => ?_⟩⟩, fun f => fatal_of_number_error⟩
  · rw [number_of_longest_point h hp]
    rfl
  · rw [number_of_longest_in_range h hp hv]
    rfl
  · obtain ⟨tail, hfail⟩ := number_of_longest_out_of_range h hp hv
    exact ⟨tail, congrArg Run.result hfail⟩

/-- The least number is read and its predecessor is not; leading zeros count for nothing. -/
theorem number_exact_at_bounds :
    let atLeast := Cursor.atStart "-9223372036854775808,"
    let belowLeast := Cursor.atStart "-9223372036854775809"
    let zeros := Cursor.atStart "+007x"
    let point := Cursor.atStart "12.5"
    (number atLeast).result = .ok (-9223372036854775808, atLeast.advance 20) ∧
      (∃ tail, (number belowLeast).result =
        .error { expected := "integer in i64 range" ++ tail, position := 20 }) ∧
      (number zeros).result = .ok (7, zeros.advance 4) ∧
      (number point).result =
        .error { expected := "integer without fractional part", position := 2 } ∧
      (number (zeros.forward 4)).result = .error { expected := "number", position := 4 } := by
  intro atLeast belowLeast zeros point
  have hleast : LongestNumeral atLeast.ahead ['-'] "9223372036854775808".toList :=
    longestNumeral_iff.2 ⟨[','], ⟨by decide, by decide, List.all_eq_true.1 (by decide)⟩, stops_cons.2 (by decide), rfl⟩
  have hbelow : LongestNumeral belowLeast.ahead ['-'] "9223372036854775809".toList :=
    longestNumeral_iff.2 ⟨[], ⟨by decide, by decide, List.all_eq_true.1 (by decide)⟩, stops_nil _, rfl⟩
  have hzeros : LongestNumeral zeros.ahead ['+'] ['0', '0', '7'] :=
    longestNumeral_iff.2 ⟨['x'], ⟨by decide, by decide, List.all_eq_true.1 (by decide)⟩, stops_cons.2 (by decide), rfl⟩
  have hpoint : LongestNumeral point.ahead [] ['1', '2'] :=
    longestNumeral_iff.2
      ⟨['.', '5'], ⟨by decide, by decide, List.all_eq_true.1 (by decide)⟩, stops_cons.2 (by decide), rfl⟩
  have hnone : NoNumeral (zeros.forward 4).ahead :=
    fun _ _ => not_isPrefix_of_numeral_eq_none (by decide)
  refine ⟨?_, ?_, ?_, ?_, ?_⟩
  · exact (((number_exact atLeast).2.2.1 _ _ hleast).2 (by decide)).1 (by decide)
  · exact (((number_exact belowLeast).2.2.1 _ _ hbelow).2 (by decide)).2 (by decide)
  · exact (((number_exact zeros).2.2.1 _ _ hzeros).2 (by decide)).1 (by decide)
  · exact ((number_exact point).2.2.1 _ _ hpoint).1 (by decide)
  · exact (number_exact (zeros.forward 4)).2.1 hnone

end Grammar

end Descent
