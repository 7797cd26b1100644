import Descent.Proofs.Unfolding
import Descent.Proofs.Lexeme

/-!
# How the productions run

What the text ahead starts with decides how each of the grammar's productions runs. This module works
the runs out, failures and events included: those of `boolean`, `identifier` and `number` at a word,
and those of `callOf p` behind a name, where all else hangs on the run of the argument list
(`arguments`) and on what stands in front of it and behind it.
-/

namespace Descent

namespace Cursor

theorem position_lt_forward {c : Cursor} {word rest : List Char} (h : c.ahead = word ++ rest)
    (hw : 0 < word.length) : c.position < (c.forward word.length).position := by
  have hlen := Text.length_le_byteLength word
  rw [(between_of_eq_append h).position_eq]
  omega

theorem position_le_forward (c : Cursor) (n : Nat) : c.position ≤ (c.forward n).position := by
  rw [position_forward]
  omega

end Cursor

namespace Grammar

open Descent.Parser

/-! ## The words -/

/-- What is told when a truth value was looked for in vain. -/
def noKeyword (c : Cursor) : Event :=
  .choiceExhausted 2 c.position { expected := "true", position := c.position }

theorem keyword_unique {b b' : Bool} {cs : List Char} (h : keyword b <+: cs)
    (h' : keyword b' <+: cs) : b = b' := by
  have key : ∀ cs, ¬ (keyword true <+: cs ∧ keyword false <+: cs) := by
    rintro (_ | ⟨c, cs⟩) ⟨ht, hf⟩
    · simp [keyword] at ht
    · simp only [keyword, if_true, Bool.false_eq_true, if_false] at ht hf
      have h1 : 't' = c := (List.cons_prefix_cons.1 ht).1
      have h2 : 'f' = c := (List.cons_prefix_cons.1 hf).1
      exact absurd (h1.trans h2.symm) (by decide)
  cases b <;> cases b'
  · rfl
  · exact (key cs ⟨h', h⟩).elim
  · exact (key cs ⟨h, h'⟩).elim
  · rfl

theorem boolean_of_isPrefix {b : Bool} {c : Cursor} (h : keyword b <+: c.ahead) :
    boolean c = .succeed b (c.forward (keyword b).length) := by
  cases b with
  | true =>
    have ht : literal "true" c = .succeed "true" (c.forward 4) := literal_of_isPrefix h
    simp [boolean, Parser.map, choice, tryEach, ht, keyword, Run.succeed, Run.silent, Run.map,
      Except.map]
  | false =>
    have ht : literal "true" c = .fail { expected := "true", position := c.position } :=
      literal_of_not_isPrefix fun h' => absurd (keyword_unique (b := true) h' h) (by decide)
    have hf : literal "false" c = .succeed "false" (c.forward 5) := literal_of_isPrefix h
    simp [boolean, Parser.map, choice, tryEach, ht, hf, keyword, Run.succeed, Run.fail, Run.silent,
      Run.map, Run.after, Except.map]

theorem boolean_of_not_isPrefix {c : Cursor} (h : ∀ b, ¬ keyword b <+: c.ahead) :
    boolean c =
      { result := .error { expected := "true", position := c.position }, trace := [noKeyword c] } := by
  have ht : literal "true" c = .fail { expected := "true", position := c.position } :=
    literal_of_not_isPrefix (h true)
  have hf : literal "false" c = .fail { expected := "false", position := c.position } :=
    literal_of_not_isPrefix (h false)
  simp [boolean, Parser.map, choice, tryEach, ht, hf, Run.fail, Run.silent, Run.map, Run.after,
    Except.map, exhausted, furthest, noKeyword]

theorem identifier_of_nameAhead {c : Cursor} {name rest : List Char}
    (h : NameAhead c.ahead name rest) :
    identifier c = .succeed (String.ofList name) (c.forward name.length) := by
  have hn := h.isName
  have hc := h.eq_append
  cases name with
  | nil => exact hn.elim
  | cons first others =>
    have ho : (others ++ rest).takeWhile isNameChar = others :=
      takeWhile_append_of_stops hn.2 h.stops
    rw [List.cons_append] at hc
    simp only [identifier, hc, hn.1, if_true, ho]

theorem identifier_of_stops {c : Cursor} (h : Stops isNameStart c.ahead) :
    identifier c = .fail { expected := "identifier", position := c.position } := by
  unfold identifier
  split
  · next first others hc =>
    rw [hc, stops_cons] at h
    simp only [h, Bool.false_eq_true, if_false]
    rfl
  · rfl

theorem number_of_none {c : Cursor} (h : numeral c.ahead = none) :
    number c = .fail { expected := "number", position := c.position } := by
  simp only [number, h]
  rfl

theorem expected_tooSmall (text : String) :
    ∃ tail, (NumberFault.tooSmall text).expected = "integer in i64 range" ++ tail := by
  have h : "integer in i64 range, found " = "integer in i64 range" ++ ", found " := by decide
  refine ⟨", found " ++ (text ++ " (number too small to fit in target type)"), ?_⟩
  rw [← String.append_assoc, ← h, ← String.append_assoc]
  rfl

theorem expected_tooLarge (text : String) :
    ∃ tail, (NumberFault.tooLarge text).expected = "integer in i64 range" ++ tail := by
  have h : "integer in i64 range, found " = "integer in i64 range" ++ ", found " := by decide
  refine ⟨", found " ++ (text ++ " (number too large to fit in target type)"), ?_⟩
  rw [← String.append_assoc, ← h, ← String.append_assoc]
  rfl

section
variable {c : Cursor} {sign digits rest : List Char} (h : NumeralAhead c.ahead sign digits rest)
include h

theorem ahead_behind_numeral : (c.forward (sign ++ digits).length).ahead = rest := by
  rw [Cursor.ahead_forward, h.eq_append, List.drop_left]

theorem number_of_point (hp : rest.head? = some '.') :
    number c = .fail
      { expected := "integer without fractional part"
        position := (c.forward (sign ++ digits).length).position } := by
  simp only [number, h.numeral_eq, ahead_behind_numeral h, hp, if_true]
  rfl

/-- A numeral out of range is refused behind its last digit. -/
theorem number_of_out_of_range (hp : rest.head? ≠ some '.')
    (hv : numeralValue sign digits < least ∨ greatest < numeralValue sign digits) :
    ∃ tail, number c = .fail
      { expected := "integer in i64 range" ++ tail
        position := (c.forward (sign ++ digits).length).position } := by
  by_cases hl : numeralValue sign digits < least
  · obtain ⟨tail, ht⟩ := expected_tooSmall (String.ofList (sign ++ digits))
    refine ⟨tail, ?_⟩
    simp only [number, h.numeral_eq, ahead_behind_numeral h, if_neg hp, signedValue_eq, if_pos hl,
      number.refuse, ht]
  · obtain ⟨tail, ht⟩ := expected_tooLarge (String.ofList (sign ++ digits))
    refine ⟨tail, ?_⟩
    simp only [number, h.numeral_eq, ahead_behind_numeral h, if_neg hp, signedValue_eq, if_neg hl,
      if_pos (hv.resolve_left hl), number.refuse, ht]

theorem number_of_in_range (hp : rest.head? ≠ some '.') (hl : least ≤ numeralValue sign digits)
    (hg : numeralValue sign digits ≤ greatest) :
    number c = .succeed (numeralValue sign digits) (c.forward (sign ++ digits).length) := by
  simp only [number, h.numeral_eq, ahead_behind_numeral h, if_neg hp, signedValue_eq,
    if_neg (Int.not_lt.2 hl), if_neg (Int.not_lt.2 hg)]

end

/-! ## Commas and brackets -/

theorem singleton_isPrefix {a : Char} {cs : List Char} : [a] <+: cs ↔ cs.head? = some a := by
  cases cs with
  | nil => simp
  | cons b cs => simp [List.cons_prefix_cons, eq_comm]

section
variable {α : Type} {p : Parser α} {c : Cursor}

theorem followedBy_comma (h : c.ahead.head? = some ',') :
    followedBy (literal ",") p c = p (c.forward 1) := by
  have hcomma : literal "," c = .succeed "," (c.forward 1) :=
    literal_of_isPrefix (singleton_isPrefix.2 h)
  rw [followedBy, hcomma, Run.andThen_of_ok rfl]
  rfl

theorem followedBy_no_comma (h : c.ahead.head? ≠ some ',') :
    followedBy (literal ",") p c = .fail { expected := ",", position := c.position } := by
  have hcomma : literal "," c = .fail { expected := ",", position := c.position } :=
    literal_of_not_isPrefix fun hp => h (singleton_isPrefix.1 hp)
  rw [followedBy, hcomma, Run.andThen_of_error rfl]
  rfl

theorem followedBy_comma_ok {a : α} {c' : Cursor} :
    (followedBy (literal ",") p c).result = .ok (a, c') ↔
      c.ahead.head? = some ',' ∧ (p (c.forward 1)).result = .ok (a, c') := by
  by_cases h : c.ahead.head? = some ','
  · rw [followedBy_comma h]
    simp [h]
  · rw [followedBy_no_comma h]
    simp [h]

theorem followedBy_comma_error {f : Failure} :
    (followedBy (literal ",") p c).result = .error f ↔
      (c.ahead.head? ≠ some ',' ∧ f = { expected := ",", position := c.position }) ∨
        (c.ahead.head? = some ',' ∧ (p (c.forward 1)).result = .error f) := by
  by_cases h : c.ahead.head? = some ','
  · rw [followedBy_comma h]
    simp [h]
  · rw [followedBy_no_comma h]
    simp [h, eq_comm]

/-- Items with a comma in front of each are passed one by one, if each is read as far as the comma of
the next. -/
theorem rounds_of_commas {ι : Type} {items : List ι} {text : ι → List Char} {value : ι → α}
    {c' : Cursor}
    (h : ∀ i ∈ items, ∀ (others : List (List Char)) (d : Cursor),
      Cursor.Between d (text i ++ others.flatMap (',' :: ·)) c' →
        (p d).result = .ok (value i, d.forward (text i).length))
    (hw : Cursor.Between c ((items.map text).flatMap (',' :: ·)) c') :
    Rounds (followedBy (literal ",") p) c (items.map value) c' := by
  induction items generalizing c with
  | nil =>
    rw [hw.eq_forward]
    exact .nil c
  | cons i items ih =>
    obtain ⟨hi, hothers⟩ := List.forall_mem_cons.1 h
    have hw' : Cursor.Between c ([','] ++ (text i ++ (items.map text).flatMap (',' :: ·))) c' := hw
    obtain ⟨hcomma, hitem⟩ := hw'.split
    have hhead := singleton_isPrefix.1 ⟨_, hcomma.ahead_eq.symm⟩
    exact .cons (followedBy_comma_ok.2 ⟨hhead, hi _ _ hitem⟩) (ih hothers hitem.split.2)

end

section
variable {α : Type} {content : Parser α} {c : Cursor}

theorem bracket_of_not_opening (h : c.ahead.head? ≠ some '(') :
    bracket (literal "(") content (literal ")") c =
      .fail { expected := "Bracket: (", position := c.position } := by
  have ho : literal "(" c = .fail { expected := "(", position := c.position } :=
    literal_of_not_isPrefix fun hp => h (singleton_isPrefix.1 hp)
  rw [bracket, ho, Run.andThen_of_error rfl]
  rfl

theorem bracket_of_opening (h : c.ahead.head? = some '(') :
    bracket (literal "(") content (literal ")") c =
      Run.mapFailure (·.inside "Bracket") ((content (c.forward 1)).andThen fun a d =>
        (literal ")" d).map fun _ => a) := by
  have ho : literal "(" c = .succeed "(" (c.forward 1) :=
    literal_of_isPrefix (singleton_isPrefix.2 h)
  rw [bracket, ho, Run.andThen_of_ok rfl]
  rfl

theorem bracket_of_error (h : c.ahead.head? = some '(') {f : Failure}
    (hf : (content (c.forward 1)).result = .error f) :
    bracket (literal "(") content (literal ")") c =
      { result := .error (f.inside "Bracket"), trace := (content (c.forward 1)).trace } := by
  rw [bracket_of_opening h, Run.andThen_of_error hf]
  rfl

theorem bracket_of_not_closing (h : c.ahead.head? = some '(') {a : α} {d : Cursor}
    (ha : (content (c.forward 1)).result = .ok (a, d)) (hd : d.ahead.head? ≠ some ')') :
    bracket (literal "(") content (literal ")") c =
      { result := .error { expected := "Bracket: )", position := d.position }
        trace := (content (c.forward 1)).trace } := by
  have hc : literal ")" d = .fail { expected := ")", position := d.position } :=
    literal_of_not_isPrefix fun hp => hd (singleton_isPrefix.1 hp)
  rw [bracket_of_opening h, Run.andThen_of_ok ha, hc, Run.mapFailure_of_error rfl]
  simp [Run.after, Run.map, Run.fail, Run.silent, Except.map, Failure.inside]

theorem bracket_of_closing (h : c.ahead.head? = some '(') {a : α} {d : Cursor}
    (ha : (content (c.forward 1)).result = .ok (a, d)) (hd : d.ahead.head? = some ')') :
    bracket (literal "(") content (literal ")") c =
      { result := .ok (a, d.forward 1), trace := (content (c.forward 1)).trace } := by
  have hc : literal ")" d = .succeed ")" (d.forward 1) :=
    literal_of_isPrefix (singleton_isPrefix.2 hd)
  rw [bracket_of_opening h, Run.andThen_of_ok ha, hc, Run.mapFailure_of_ok rfl]
  simp [Run.after, Run.map, Run.succeed, Run.silent, Except.map]

end

/-! ## Calls -/

/-- Where the arguments of a call to `name` start: one level down, behind the opening bracket. -/
def argumentsAt (c : Cursor) (name : List Char) : Cursor :=
  { c.forward (name.length + 1) with depth := c.depth + 1 }

/-- How the arguments of a call run. -/
def arguments (p : Parser Expression) (c : Cursor) (name : List Char) : Run (List Expression) :=
  separatedList (literal ",") p (argumentsAt c name)

/-- At the bracket of a call, one level down already. -/
def bracketAt (c : Cursor) (name : List Char) : Cursor :=
  { c.forward name.length with depth := c.depth + 1 }

theorem forward_bracketAt (c : Cursor) (name : List Char) :
    (bracketAt c name).forward 1 = argumentsAt c name := by
  rw [argumentsAt, ← Cursor.forward_forward]
  rfl

theorem ahead_argumentsAt {c : Cursor} {name rest : List Char}
    (h : c.ahead = name ++ '(' :: rest) : (argumentsAt c name).ahead = rest := by
  show c.ahead.drop (name.length + 1) = rest
  rw [h, ← List.drop_drop, List.drop_left]
  rfl

section
variable {p : Parser Expression} {c : Cursor} {name rest : List Char}
  (h : NameAhead c.ahead name rest)
include h

theorem ahead_bracketAt : (bracketAt c name).ahead = rest := by
  show (c.forward name.length).ahead = rest
  rw [Cursor.ahead_forward, h.eq_append, List.drop_left]

theorem callOf_of_nameAhead :
    callOf p c =
      (nested (bracket (literal "(") (separatedList (literal ",") p) (literal ")"))
        (c.forward name.length)).map fun es => (String.ofList name, es) := by
  rw [callOf, both, identifier_of_nameAhead h, Run.andThen_of_ok rfl]
  rfl

theorem callOf_tooDeep (hd : c.maxDepth ≤ c.depth) :
    callOf p c = .fail
      { expected := "nesting depth of at most " ++ toString c.maxDepth
        position := (c.forward name.length).position
        fatal := true } := by
  rw [callOf_of_nameAhead h, nested, descend_of_le (c := c.forward name.length) hd,
    Run.andThen_of_error rfl]
  rfl

theorem callOf_of_lt (hd : c.depth < c.maxDepth) :
    callOf p c =
      ((bracket (literal "(") (separatedList (literal ",") p) (literal ")")
        (bracketAt c name)).andThen fun es d => .succeed es d.ascend).map fun es =>
          (String.ofList name, es) := by
  rw [callOf_of_nameAhead h, nested_of_lt (c := c.forward name.length) hd]
  rfl

theorem callOf_noOpening (hd : c.depth < c.maxDepth) (ho : rest.head? ≠ some '(') :
    callOf p c = .fail
      { expected := "Bracket: (", position := (c.forward name.length).position } := by
  rw [callOf_of_lt h hd, bracket_of_not_opening (by rwa [ahead_bracketAt h]),
    Run.andThen_of_error rfl]
  rfl

theorem callOf_fatal (hd : c.depth < c.maxDepth) (ho : rest.head? = some '(') {f : Failure}
    (hf : (arguments p c name).result = .error f) :
    callOf p c = { result := .error f, trace := (arguments p c name).trace } := by
  rw [arguments, ← forward_bracketAt] at hf
  rw [callOf_of_lt h hd, bracket_of_error (by rwa [ahead_bracketAt h]) hf,
    Run.andThen_of_error rfl, Failure.inside_of_fatal (fatal_of_separatedList_error hf),
    forward_bracketAt]
  rfl

theorem callOf_noClosing (hd : c.depth < c.maxDepth) (ho : rest.head? = some '(')
    {es : List Expression} {d : Cursor} (hes : (arguments p c name).result = .ok (es, d))
    (hc : d.ahead.head? ≠ some ')') :
    callOf p c =
      { result := .error { expected := "Bracket: )", position := d.position }
        trace := (arguments p c name).trace } := by
  rw [arguments, ← forward_bracketAt] at hes
  rw [callOf_of_lt h hd, bracket_of_not_closing (by rwa [ahead_bracketAt h]) hes hc,
    Run.andThen_of_error rfl, forward_bracketAt]
  rfl

theorem callOf_closing (hd : c.depth < c.maxDepth) (ho : rest.head? = some '(')
    {es : List Expression} {d : Cursor} (hes : (arguments p c name).result = .ok (es, d))
    (hc : d.ahead.head? = some ')') :
    callOf p c =
      { result := .ok ((String.ofList name, es), (d.forward 1).ascend)
        trace := (arguments p c name).trace } := by
  rw [arguments, ← forward_bracketAt] at hes
  rw [callOf_of_lt h hd, bracket_of_closing (by rwa [ahead_bracketAt h]) hes hc,
    Run.andThen_of_ok rfl, forward_bracketAt]
  simp [Run.after, Run.map, Run.succeed, Run.silent, Except.map, arguments]

end

end Grammar

end Descent
