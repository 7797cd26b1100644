import Descent.Grammar

/-!
# The words of the grammar

An expression starts with a truth value, a numeral or a name. This module says what these are
without reference to the parsers that read them.

* `keyword`, `IsNumeral`, `IsName` : the three kinds of words; `numeralValue` is the number that a
  numeral stands for;
* `Stops p rest` : `rest` does not go on with a character of the class `p`. A word is read as far as
  it goes, so the text behind it stops (`takeWhile_append_of_stops`);
* `Start` : what a text starts with. Every text starts in one of four ways (`start`).
-/

namespace Descent

/-- `rest` does not begin with a character of the class `p`. -/
def Stops (p : Char → Bool) (rest : List Char) : Prop := ∀ c, rest.head? = some c → p c = false

theorem stops_nil (p : Char → Bool) : Stops p [] := fun _ h => nomatch h

theorem stops_cons {p : Char → Bool} {c : Char} {rest : List Char} :
    Stops p (c :: rest) ↔ p c = false := by
  simp [Stops]

theorem stops_dropWhile (p : Char → Bool) (cs : List Char) : Stops p (cs.dropWhile p) := by
  intro c h
  have := List.head?_dropWhile_not p cs
  simpa [h] using this

theorem of_mem_takeWhile {p : Char → Bool} {c : Char} {cs : List Char} (h : c ∈ cs.takeWhile p) :
    p c = true :=
  List.all_eq_true.1 List.all_takeWhile c h

theorem takeWhile_append_of_stops {p : Char → Bool} {word rest : List Char}
    (hw : ∀ c ∈ word, p c = true) (hr : Stops p rest) : (word ++ rest).takeWhile p = word := by
  rw [List.takeWhile_append_of_pos hw]
  cases rest with
  | nil => simp
  | cons c rest => simp [stops_cons.1 hr]

/-- Words of one class at the front of a text are prefixes of the longest such word. -/
theorem isPrefix_of_stops {p : Char → Bool} {word whole rest : List Char}
    (hw : ∀ c ∈ word, p c = true) (hr : Stops p rest) (h : word <+: whole ++ rest) :
    word <+: whole := by
  rcases List.prefix_or_prefix_of_prefix h (List.prefix_append whole rest) with h' | ⟨more, rfl⟩
  · exact h'
  · cases more with
    | nil => simp
    | cons c more =>
      have hc : rest.head? = some c := by
        obtain ⟨tail, ht⟩ := (List.prefix_append_right_inj whole).1 h
        simp [← ht]
      have := hr c hc
      simp [hw c (by simp)] at this

namespace Grammar

/-! ## Keywords -/

def keyword (b : Bool) : List Char := if b then "true".toList else "false".toList

theorem isNameChar_of_mem_keyword {b : Bool} {c : Char} (h : c ∈ keyword b) :
    isNameChar c = true := by
  have hall : (keyword b).all isNameChar = true := by cases b <;> decide
  exact List.all_eq_true.1 hall c h

/-! ## Numerals -/

/-- An optional sign, and then one digit or more. -/
structure IsNumeral (sign digits : List Char) : Prop where
  sign_mem : sign ∈ [[], ['+'], ['-']]
  digits_ne_nil : digits ≠ []
  isDigit : ∀ d ∈ digits, d.isDigit = true

/-- The number that a sign and digits stand for, of which there may be any amount. -/
def numeralValue (sign digits : List Char) : Int :=
  if sign = ['-'] then -(Nat.ofDigitChars 10 digits 0 : Int) else Nat.ofDigitChars 10 digits 0

theorem decimalValue_eq (digits : List Char) :
    Text.decimalValue digits = Nat.ofDigitChars 10 digits 0 := by
  rw [Text.decimalValue, Text.digitsValue, List.foldl_map, Nat.ofDigitChars_eq_foldl]

theorem signedValue_eq (sign digits : List Char) :
    signedValue sign digits = numeralValue sign digits := by
  rw [signedValue, numeralValue, decimalValue_eq]

/-! ## Names -/

/-- A letter or an underscore, and then letters, digits and underscores. -/
def IsName : List Char → Prop
  | [] => False
  | first :: others => isNameStart first = true ∧ ∀ c ∈ others, isNameChar c = true

theorem isNameChar_of_isNameStart {c : Char} (h : isNameStart c = true) : isNameChar c = true := by
  simp only [isNameStart, isNameChar, Char.isAlphanum, Bool.or_eq_true] at h ⊢
  exact h.imp_left .inl

theorem isNameStart_of_isDigit {c : Char} (h : c.isDigit = true) : isNameStart c = false := by
  have hunderscore : c ≠ '_' := by rintro rfl; cases h
  have hle : c.toNat ≤ 57 := (Char.isDigit_iff_toNat.1 h).2
  have hupper : ¬ c.val ≥ 'A'.val := by
    rw [ge_iff_le, UInt32.le_iff_toNat_le]
    exact Nat.not_le.2 (Nat.lt_of_le_of_lt hle (by decide))
  have hlower : ¬ c.val ≥ 'a'.val := by
    rw [ge_iff_le, UInt32.le_iff_toNat_le]
    exact Nat.not_le.2 (Nat.lt_of_le_of_lt hle (by decide))
  have halpha : c.isAlpha = false := by
    show (decide (c.val ≥ 'A'.val ∧ c.val ≤ 'Z'.val) ||
      (decide (c.val ≥ 'a'.val) && decide (c.val ≤ 'z'.val))) = false
    rw [decide_eq_false fun h => hupper h.1, decide_eq_false hlower]
    rfl
  simp [isNameStart, halpha, hunderscore]

theorem IsName.isNameChar {name : List Char} (h : IsName name) : ∀ c ∈ name, isNameChar c = true := by
  cases name with
  | nil => exact h.elim
  | cons first others =>
    intro c hc
    rcases List.mem_cons.1 hc with rfl | hc
    · exact isNameChar_of_isNameStart h.1
    · exact h.2 c hc

theorem IsName.length_pos {name : List Char} (h : IsName name) : 0 < name.length := by
  cases name with
  | nil => exact h.elim
  | cons first others => simp

/-! ## How a numeral is found -/

/-- The first character of a numeral starts no name. -/
theorem IsNumeral.stops_isNameStart {sign digits : List Char} (h : IsNumeral sign digits)
    (rest : List Char) : Stops isNameStart (sign ++ digits ++ rest) := by
  obtain ⟨d, ds, rfl⟩ := List.exists_cons_of_ne_nil h.digits_ne_nil
  have hd := isNameStart_of_isDigit (h.isDigit d List.mem_cons_self)
  have hs := h.sign_mem
  simp only [List.mem_cons, List.not_mem_nil, or_false] at hs
  rcases hs with rfl | rfl | rfl
  · exact stops_cons.2 hd
  · exact stops_cons.2 (by decide)
  · exact stops_cons.2 (by decide)

theorem IsNumeral.length_pos {sign digits : List Char} (h : IsNumeral sign digits) :
    0 < (sign ++ digits).length := by
  have := List.length_pos_iff.2 h.digits_ne_nil
  simp only [List.length_append]
  omega

theorem signOf_append {sign digits : List Char} (h : IsNumeral sign digits) (rest : List Char) :
    signOf (sign ++ digits ++ rest) = sign := by
  obtain ⟨d, ds, rfl⟩ := List.exists_cons_of_ne_nil h.digits_ne_nil
  have hd := h.isDigit d List.mem_cons_self
  have hs := h.sign_mem
  simp only [List.mem_cons, List.not_mem_nil, or_false] at hs
  rcases hs with rfl | rfl | rfl
  · have hp : d ≠ '+' := by rintro rfl; cases hd
    have hm : d ≠ '-' := by rintro rfl; cases hd
    simp [signOf, hp, hm]
  · rfl
  · rfl

/-- `numeral` reads the longest numeral at the front of the text. -/
theorem numeral_append {sign digits rest : List Char} (h : IsNumeral sign digits)
    (hr : Stops Char.isDigit rest) : numeral (sign ++ digits ++ rest) = some (sign, digits) := by
  have hd : ((sign ++ digits ++ rest).drop sign.length).takeWhile Char.isDigit = digits := by
    rw [List.append_assoc, List.drop_left]
    exact takeWhile_append_of_stops h.isDigit hr
  simp only [numeral, signOf_append h, hd, List.isEmpty_iff, if_neg h.digits_ne_nil]

theorem isPrefix_signOf (cs : List Char) : signOf cs <+: cs ∧ signOf cs ∈ [[], ['+'], ['-']] := by
  unfold signOf
  split <;> simp

theorem numeral_eq_some {cs sign digits : List Char} (h : numeral cs = some (sign, digits)) :
    IsNumeral sign digits ∧ ∃ rest, cs = sign ++ digits ++ rest ∧ Stops Char.isDigit rest := by
  simp only [numeral] at h
  split at h
  · cases h
  · next hd =>
    cases h
    obtain ⟨hp, hs⟩ := isPrefix_signOf cs
    refine ⟨⟨hs, ?_, fun d hd => of_mem_takeWhile hd⟩,
      (cs.drop (signOf cs).length).dropWhile Char.isDigit, ?_, stops_dropWhile _ _⟩
    · simpa using hd
    · rw [List.append_assoc, List.takeWhile_append_dropWhile]
      exact (List.prefix_iff_eq_append.1 hp).symm

/-- No numeral stands at the front of the text when `numeral` finds none. -/
theorem not_isPrefix_of_numeral_eq_none {cs : List Char} (h : numeral cs = none)
    {sign digits : List Char} (hn : IsNumeral sign digits) : ¬ sign ++ digits <+: cs := by
  rintro ⟨rest, rfl⟩
  -- the digits that follow belong to the numeral as well
  have hn' : IsNumeral sign (digits ++ rest.takeWhile Char.isDigit) := by
    refine ⟨hn.sign_mem, by simp [hn.digits_ne_nil], fun d hd => ?_⟩
    rcases List.mem_append.1 hd with hd | hd
    · exact hn.isDigit d hd
    · exact of_mem_takeWhile hd
  have := numeral_append hn' (stops_dropWhile Char.isDigit rest)
  rw [List.append_assoc, List.append_assoc, List.takeWhile_append_dropWhile, ← List.append_assoc, h]
    at this
  cases this

/-! ## What a text starts with -/

/-- The text starts with a numeral, and the digits end where `rest` begins. -/
structure NumeralAhead (cs sign digits rest : List Char) : Prop where
  isNumeral : IsNumeral sign digits
  stops : Stops Char.isDigit rest
  eq_append : cs = sign ++ digits ++ rest

/-- The text starts with a name, which ends where `rest` begins, and not with a keyword. -/
structure NameAhead (cs name rest : List Char) : Prop where
  isName : IsName name
  not_keyword : ∀ b, ¬ keyword b <+: cs
  stops : Stops isNameChar rest
  eq_append : cs = name ++ rest

/-- A name that begins with no keyword remains one whatever ends it. -/
theorem nameAhead_append {name rest : List Char} (hn : IsName name)
    (hk : ∀ b, ¬ keyword b <+: name) (hr : Stops isNameChar rest) :
    NameAhead (name ++ rest) name rest :=
  ⟨hn, fun b h => hk b (isPrefix_of_stops (fun _ => isNameChar_of_mem_keyword) hr h), hr, rfl⟩

theorem NameAhead.name_not_keyword {cs name rest : List Char} (h : NameAhead cs name rest) (b : Bool) :
    ¬ keyword b <+: name := by
  intro hb
  apply h.not_keyword b
  rw [h.eq_append]
  exact hb.trans (List.prefix_append _ _)

theorem NumeralAhead.stops_isNameStart {cs sign digits rest : List Char}
    (h : NumeralAhead cs sign digits rest) : Stops isNameStart cs := by
  rw [h.eq_append]
  exact h.isNumeral.stops_isNameStart rest

theorem NumeralAhead.numeral_eq {cs sign digits rest : List Char}
    (h : NumeralAhead cs sign digits rest) : numeral cs = some (sign, digits) := by
  rw [h.eq_append]
  exact numeral_append h.isNumeral h.stops

theorem not_keyword_of_stops {cs : List Char} (h : Stops isNameStart cs) (b : Bool) :
    ¬ keyword b <+: cs := by
  rintro ⟨rest, rfl⟩
  cases b
  · exact absurd (stops_cons.1 h) (by decide)
  · exact absurd (stops_cons.1 h) (by decide)

theorem NumeralAhead.unique {cs sign digits rest sign' digits' rest' : List Char}
    (h : NumeralAhead cs sign digits rest) (h' : NumeralAhead cs sign' digits' rest') :
    sign' = sign ∧ digits' = digits ∧ rest' = rest := by
  have hfound := h'.numeral_eq
  rw [h.numeral_eq] at hfound
  cases hfound
  have happend := h'.eq_append
  rw [h.eq_append] at happend
  exact ⟨rfl, rfl, (List.append_cancel_left happend).symm⟩

theorem NameAhead.unique {cs name rest name' rest' : List Char} (h : NameAhead cs name rest)
    (h' : NameAhead cs name' rest') : name' = name ∧ rest' = rest := by
  have hname : cs.takeWhile isNameChar = name := by
    rw [h.eq_append]
    exact takeWhile_append_of_stops h.isName.isNameChar h.stops
  have hname' : cs.takeWhile isNameChar = name' := by
    rw [h'.eq_append]
    exact takeWhile_append_of_stops h'.isName.isNameChar h'.stops
  obtain rfl : name' = name := hname'.symm.trans hname
  have happend := h'.eq_append
  rw [h.eq_append] at happend
  exact ⟨rfl, (List.append_cancel_left happend).symm⟩

theorem NameAhead.not_stops {cs name rest : List Char} (h : NameAhead cs name rest) :
    ¬ Stops isNameStart cs := by
  intro hs
  rw [h.eq_append] at hs
  cases name with
  | nil => exact h.isName
  | cons first others => exact Bool.eq_false_iff.1 (stops_cons.1 hs) h.isName.1

theorem NameAhead.not_numeralAhead {cs name rest sign digits rest' : List Char}
    (h : NameAhead cs name rest) : ¬ NumeralAhead cs sign digits rest' :=
  fun h' => h.not_stops h'.stops_isNameStart

theorem NameAhead.numeral_eq_none {cs name rest : List Char} (h : NameAhead cs name rest) :
    numeral cs = none := by
  cases hn : numeral cs with
  | none => rfl
  | some found =>
    obtain ⟨sign, digits⟩ := found
    obtain ⟨hd, tail, ht, hs⟩ := numeral_eq_some hn
    exact absurd ⟨hd, hs, ht⟩ h.not_numeralAhead

/-- The four ways in which a text can start. -/
inductive Start (cs : List Char) : Prop where
  | keyword (b : Bool) (h : keyword b <+: cs)
  | numeral {sign digits rest : List Char} (h : NumeralAhead cs sign digits rest)
  | name {name rest : List Char} (h : NameAhead cs name rest)
  | nothing (hn : Grammar.numeral cs = none) (hs : Stops isNameStart cs)

theorem start (cs : List Char) : Start cs := by
  by_cases hk : ∃ b, keyword b <+: cs
  · obtain ⟨b, h⟩ := hk
    exact .keyword b h
  have hk' : ∀ b, ¬ keyword b <+: cs := fun b h => hk ⟨b, h⟩
  cases hn : numeral cs with
  | some found =>
    obtain ⟨sign, digits⟩ := found
    obtain ⟨hd, rest, h, hr⟩ := numeral_eq_some hn
    exact .numeral ⟨hd, hr, h⟩
  | none =>
    cases cs with
    | nil => exact .nothing hn (stops_nil _)
    | cons first others =>
      by_cases hf : isNameStart first = true
      · have hname : IsName (first :: others.takeWhile isNameChar) :=
          ⟨hf, fun c hc => of_mem_takeWhile hc⟩
        exact .name ⟨hname, hk', stops_dropWhile isNameChar others, by simp⟩
      · exact .nothing hn (stops_cons.2 (Bool.eq_false_iff.2 hf))

end Grammar

end Descent
