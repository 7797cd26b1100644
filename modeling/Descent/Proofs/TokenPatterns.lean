import Descent.Proofs.Preference
import Descent.Proofs.Production

/-!
# Names and numbers as patterns

Names and numbers are read character by character. This module shows that the patterns
`[a-zA-Z_][a-zA-Z0-9_]*` and `[+\-]?[0-9]+(\.[0-9]*)?` read the same. The first is `identifier`
(`identifier_eq_pattern`). The second takes a fraction along, and of its text a number is made
afterwards: it is refused at its point, if it has one, and else by its value (`number_eq_pattern`).
-/

namespace Descent

namespace Grammar

open Regex Regex.CharSet Cursor

/-! ## Classes -/

def digitSet : CharSet := bracketed [('0', '9')]

def signSet : CharSet := bracketed [('+', '+'), ('-', '-')]

def nameStartSet : CharSet := bracketed [('a', 'z'), ('A', 'Z'), ('_', '_')]

def nameSet : CharSet := bracketed [('a', 'z'), ('A', 'Z'), ('0', '9'), ('_', '_')]

theorem digit_range (ch : Char) : ('0' ≤ ch && ch ≤ '9') = ch.isDigit := rfl

theorem lower_range (ch : Char) : ('a' ≤ ch && ch ≤ 'z') = ch.isLower := rfl

theorem upper_range (ch : Char) : ('A' ≤ ch && ch ≤ 'Z') = ch.isUpper := by
  rw [← Bool.decide_and]
  rfl

theorem isAlpha_eq (ch : Char) : ch.isAlpha = (ch.isUpper || ch.isLower) := rfl

theorem holds_digitSet : digitSet.holds false = Char.isDigit := by
  rw [digitSet, holds_bracketed]
  funext ch
  simp only [inSome, List.any_cons, List.any_nil, Bool.or_false, digit_range]

theorem holds_signSet {ch : Char} : signSet.holds false ch = true ↔ ch = '+' ∨ ch = '-' := by
  rw [signSet, holds_bracketed]
  simp only [inSome, List.any_cons, List.any_nil, Bool.or_false, single_range, Bool.or_eq_true,
    decide_eq_true_eq]

theorem holds_nameStartSet : nameStartSet.holds false = isNameStart := by
  rw [nameStartSet, holds_bracketed]
  funext ch
  simp only [inSome, List.any_cons, List.any_nil, Bool.or_false, lower_range, upper_range,
    single_range, isNameStart, isAlpha_eq]
  rw [Bool.or_left_comm, Bool.or_assoc]

theorem holds_nameSet : nameSet.holds false = isNameChar := by
  rw [nameSet, holds_bracketed]
  funext ch
  simp only [inSome, List.any_cons, List.any_nil, Bool.or_false, lower_range, upper_range,
    digit_range, single_range, isNameChar, Char.isAlphanum, isAlpha_eq]
  rw [Bool.or_left_comm, Bool.or_assoc, Bool.or_assoc]

/-! ## Names -/

def namePattern : Pattern := .ofSource "[a-zA-Z_][a-zA-Z0-9_]*" "identifier"

/-- What the pattern of a name is read as. -/
def nameRegex : Regex :=
  .seq (.set false nameStartSet) (.seq (.rounds (.set false nameSet) 0 none true) .empty)

theorem regex_namePattern : namePattern.regex.toOption = some (atTextStart nameRegex) := by
  decide +kernel

theorem reads_nameRegex {name rest : List Char} (h : IsName name) (hrest : Stops isNameChar rest) :
    Matcher.Reads nameRegex.matcher name rest := by
  cases name with
  | nil => exact h.elim
  | cons first others =>
    have hfirst : Matcher.Reads (matcher (.set false nameStartSet)) [first] (others ++ rest) :=
      Matcher.reads_character (holds_nameStartSet ▸ h.1) _
    have hothers : Matcher.Reads (matcher (.rounds (.set false nameSet) 0 none true)) others rest :=
      Matcher.reads_star (holds_nameSet ▸ h.2) (holds_nameSet ▸ hrest)
    exact hfirst.seq hothers

theorem identifier_eq_pattern : identifier = namePattern.parser := by
  funext c
  by_cases hs : Stops isNameStart c.ahead
  · have hfails : Matcher.Fails nameRegex.matcher c.ahead :=
      (Matcher.fails_character (holds_nameStartSet ▸ hs)).seq
    rw [identifier_of_stops hs, Pattern.parser_of_fails regex_namePattern hfails]
    rfl
  · cases hc : c.ahead with
    | nil => exact absurd (hc ▸ stops_nil _) hs
    | cons first others =>
      have hfirst : isNameStart first = true := by
        simpa [hc, stops_cons] using hs
      have hreads : Matcher.Reads nameRegex.matcher (first :: others.takeWhile isNameChar)
          (others.dropWhile isNameChar) :=
        reads_nameRegex ⟨hfirst, fun _ h => of_mem_takeWhile h⟩ (stops_dropWhile _ _)
      have hword : c.ahead =
          (first :: others.takeWhile isNameChar) ++ others.dropWhile isNameChar := by
        rw [hc, List.cons_append, List.takeWhile_append_dropWhile]
      rw [Pattern.parser_of_reads regex_namePattern hword hreads]
      simp only [identifier, hc, hfirst, if_true]

/-! ## Numbers -/

def numberPattern : Pattern := .ofSource "[+\\-]?[0-9]+(\\.[0-9]*)?" "number"

/-- What the optional part of the pattern is read as. -/
def fractionRegex : Regex :=
  .seq (.set false (.single '.')) (.seq (.rounds (.set false digitSet) 0 none true) .empty)

/-- What the pattern of a number is read as. -/
def numberRegex : Regex :=
  .seq (.rounds (.set false signSet) 0 (some 1) true)
    (.seq (.rounds (.set false digitSet) 1 none true)
      (.seq (.rounds fractionRegex 0 (some 1) true) .empty))

theorem regex_numberPattern : numberPattern.regex.toOption = some (atTextStart numberRegex) := by
  decide +kernel

/-- The point and the digits behind it that a text goes on with, if it goes on with a point. -/
def fractionOf (cs : List Char) : List Char :=
  if cs.head? = some '.' then '.' :: cs.tail.takeWhile Char.isDigit else []

/-- What is made of the text of a number that reaches from `c` to `next`. -/
def numberOf (c : Cursor) (text : String) (next : Cursor) : Run Int :=
  let word := text.toList
  let value := signedValue (signOf word) (word.drop (signOf word).length)
  if '.' ∈ word then
    .fail
      { expected := NumberFault.fraction.expected
        position := c.position + Text.byteLength (word.takeWhile (· ≠ '.')) }
  else if value < least then
    .fail { expected := (NumberFault.tooSmall text).expected, position := next.position }
  else if greatest < value then
    .fail { expected := (NumberFault.tooLarge text).expected, position := next.position }
  else .succeed value next

/-! ### What the pattern of a number prefers -/

theorem IsNumeral.sign_eq {sign digits : List Char} (h : IsNumeral sign digits) :
    sign = [] ∨ sign = ['+'] ∨ sign = ['-'] := by
  simpa using h.sign_mem

theorem not_holds_signSet_of_isDigit {d : Char} (h : d.isDigit = true) :
    signSet.holds false d = false := by
  rw [Bool.eq_false_iff, ne_eq, holds_signSet]
  rintro (rfl | rfl) <;> cases h

theorem exists_reads_fraction (rest : List Char) : ∃ behind, fractionOf rest ++ behind = rest ∧
    Matcher.Reads (matcher (.rounds fractionRegex 0 (some 1) true)) (fractionOf rest) behind := by
  unfold fractionOf
  split
  · next hhead =>
    obtain ⟨rest, rfl⟩ := List.head?_eq_some_iff.1 hhead
    rw [List.tail_cons]
    refine ⟨rest.dropWhile Char.isDigit, ?_, ?_⟩
    · rw [List.cons_append, List.takeWhile_append_dropWhile]
    · have hpoint : Matcher.Reads (matcher (.set false (.single '.'))) ['.']
          (rest.takeWhile Char.isDigit ++ rest.dropWhile Char.isDigit) :=
        Matcher.reads_character (by decide) _
      have hdigits : Matcher.Reads (matcher (.rounds (.set false digitSet) 0 none true))
          (rest.takeWhile Char.isDigit) (rest.dropWhile Char.isDigit) :=
        Matcher.reads_star (holds_digitSet ▸ fun _ => of_mem_takeWhile)
          (holds_digitSet ▸ stops_dropWhile _ _)
      exact (hpoint.seq hdigits).optional
  · next hhead =>
    refine ⟨rest, rfl, Matcher.Fails.reads_optional (Matcher.fails_character ?_).seq⟩
    intro ch hch
    rw [Bool.eq_false_iff, ne_eq, holds_single]
    rintro rfl
    exact hhead hch

section
variable {sign digits rest : List Char} (h : IsNumeral sign digits)
include h

theorem reads_sign (rest : List Char) :
    Matcher.Reads (matcher (.rounds (.set false signSet) 0 (some 1) true)) sign (digits ++ rest) := by
  rcases h.sign_eq with rfl | rfl | rfl
  · obtain ⟨d, ds, rfl⟩ := List.exists_cons_of_ne_nil h.digits_ne_nil
    refine Matcher.Fails.reads_optional (Matcher.fails_character (stops_cons.2 ?_))
    exact not_holds_signSet_of_isDigit (h.isDigit d List.mem_cons_self)
  · exact (Matcher.reads_character (holds_signSet.2 (.inl rfl)) _).optional
  · exact (Matcher.reads_character (holds_signSet.2 (.inr rfl)) _).optional

theorem exists_reads_numberRegex (hrest : Stops Char.isDigit rest) :
    ∃ behind, fractionOf rest ++ behind = rest ∧
      Matcher.Reads numberRegex.matcher (sign ++ (digits ++ fractionOf rest)) behind := by
  obtain ⟨behind, hbehind, hfraction⟩ := exists_reads_fraction rest
  have hsign := reads_sign h rest
  have hdigits : Matcher.Reads (matcher (.rounds (.set false digitSet) 1 none true)) digits rest :=
    Matcher.reads_plus h.digits_ne_nil (holds_digitSet ▸ h.isDigit) (holds_digitSet ▸ hrest)
  rw [← hbehind] at hdigits hsign
  rw [← List.append_assoc] at hsign
  exact ⟨behind, hbehind, hsign.seq (hdigits.seq hfraction)⟩

end

/-- Without a numeral at the front there is no digit there, with a sign or without one. -/
theorem stops_of_numeral_eq_none (sign : List Char) {rest : List Char}
    (hsign : sign ∈ [[], ['+'], ['-']]) (h : numeral (sign ++ rest) = none) :
    Stops Char.isDigit rest := by
  intro d hd
  rw [Bool.eq_false_iff]
  intro hdigit
  have hnumeral : IsNumeral sign [d] := ⟨hsign, by simp, List.forall_mem_singleton.2 hdigit⟩
  have hprefix : sign ++ [d] <+: sign ++ rest :=
    (List.prefix_append_right_inj sign).2 (singleton_isPrefix.2 hd)
  exact not_isPrefix_of_numeral_eq_none h hnumeral hprefix

theorem fails_numberRegex {cs : List Char} (h : numeral cs = none) :
    Matcher.Fails numberRegex.matcher cs := by
  have hdigits : ∀ rest, Stops Char.isDigit rest →
      Matcher.Fails (matcher (.seq (.rounds (.set false digitSet) 1 none true)
        (.seq (.rounds fractionRegex 0 (some 1) true) .empty))) rest :=
    fun rest hrest => (Matcher.fails_plus (holds_digitSet ▸ hrest)).seq
  refine Matcher.fails_optional_character_seq (hdigits _ ?_) fun ch rest hcs hch => hdigits _ ?_
  · exact stops_of_numeral_eq_none [] (by simp) h
  · subst hcs
    exact stops_of_numeral_eq_none [ch] (by simpa using holds_signSet.1 hch) h

/-! ### What is made of the text of a number -/

theorem IsNumeral.ne_point {sign digits : List Char} (h : IsNumeral sign digits) :
    ∀ ch ∈ sign ++ digits, ch ≠ '.' := by
  rintro ch hch rfl
  rcases List.mem_append.1 hch with hsign | hdigits
  · rcases h.sign_eq with rfl | rfl | rfl <;> simp at hsign
  · cases h.isDigit _ hdigits

section
variable {c : Cursor} {sign digits rest : List Char} (h : NumeralAhead c.ahead sign digits rest)
include h

theorem numberOf_of_point (hp : rest.head? = some '.') (next : Cursor) :
    numberOf c (String.ofList (sign ++ (digits ++ fractionOf rest))) next = number c := by
  have hfraction : fractionOf rest = '.' :: rest.tail.takeWhile Char.isDigit := if_pos hp
  have hmem : '.' ∈ sign ++ (digits ++ fractionOf rest) := by simp [hfraction]
  have hfront : (sign ++ (digits ++ fractionOf rest)).takeWhile (· ≠ '.') = sign ++ digits := by
    rw [hfraction, ← List.append_assoc]
    exact takeWhile_append_of_stops (fun ch hch => decide_eq_true (h.isNumeral.ne_point ch hch))
      (stops_cons.2 (by simp))
  have hplace : (c.forward (sign ++ digits).length).position =
      c.position + Text.byteLength (sign ++ digits) :=
    (between_of_eq_append h.eq_append).position_eq
  rw [number_of_point h hp, hplace]
  simp only [numberOf, String.toList_ofList, if_pos hmem, hfront]
  rfl

theorem numberOf_of_no_point (hp : rest.head? ≠ some '.') :
    numberOf c (String.ofList (sign ++ digits)) (c.forward (sign ++ digits).length) = number c := by
  have hmem : '.' ∉ sign ++ digits := fun hm => h.isNumeral.ne_point _ hm rfl
  have hsign : signOf (sign ++ digits) = sign := by
    simpa using signOf_append h.isNumeral []
  simp only [numberOf, String.toList_ofList, if_neg hmem, hsign, List.drop_left, number,
    h.numeral_eq, ahead_behind_numeral h, if_neg hp]
  rfl

end

/-- **A number is what is made of the text of its pattern.** -/
theorem number_eq_pattern : number = fun c => (numberPattern.parser c).andThen (numberOf c) := by
  funext c
  cases hn : numeral c.ahead with
  | none =>
    rw [number_of_none hn, Pattern.parser_of_fails regex_numberPattern (fails_numberRegex hn)]
    rfl
  | some found =>
    obtain ⟨sign, digits⟩ := found
    obtain ⟨hnumeral, rest, hc, hrest⟩ := numeral_eq_some hn
    have hahead : NumeralAhead c.ahead sign digits rest := ⟨hnumeral, hrest, hc⟩
    obtain ⟨behind, hbehind, hreads⟩ := exists_reads_numberRegex hnumeral hrest
    have hword : c.ahead = sign ++ (digits ++ fractionOf rest) ++ behind := by
      rw [hc, List.append_assoc, List.append_assoc, List.append_assoc, hbehind]
    rw [Pattern.parser_of_reads regex_numberPattern hword hreads, Run.andThen_of_ok rfl]
    show number c = numberOf c _ _
    by_cases hp : rest.head? = some '.'
    · rw [numberOf_of_point hahead hp]
    · have hfraction : fractionOf rest = [] := if_neg hp
      rw [hfraction, List.append_nil, numberOf_of_no_point hahead hp]

end Grammar

end Descent
