import Descent.Proofs.Recognition

/-!
# Why a text is refused

When no expression can be read at the start of a text, and it was not the depth limit that ended the
attempt, then what the text starts with tells why. There are five kinds of refusals (`Refusal`), and
`RefusedAs` says of which kind a text is and where it is refused, by its words and by where its
arguments end. A text is of one kind only and is refused at one place (`RefusedAs.unique`), and that
is what the parser reports (`refused_at`): the furthest of the failures that it has seen, those of
the arguments apart, which the argument list drops.
-/

namespace Descent.Grammar

open Descent.Parser Descent.Cursor

/-! ## Where the arguments end -/

/-- From `c`, arguments with a comma in front of each are read up to `d`, and no further. -/
inductive MoreArguments : Cursor → Cursor → Prop where
  | stop (c : Cursor)
    (h : ∀ e c', c.ahead.head? = some ',' → (expression (c.forward 1)).result ≠ .ok (e, c')) :
    MoreArguments c c
  | next {c c' d : Cursor} {e : Expression} (hc : c.ahead.head? = some ',')
    (he : (expression (c.forward 1)).result = .ok (e, c')) (h : MoreArguments c' d) :
    MoreArguments c d

/-- From `c`, a first argument and then as many others as follow are read up to `d`. -/
inductive ArgumentsEnd (c : Cursor) : Cursor → Prop where
  | none (h : ∀ e c', (expression c).result ≠ .ok (e, c')) : ArgumentsEnd c c
  | some {c' d : Cursor} {e : Expression} (he : (expression c).result = .ok (e, c'))
    (h : MoreArguments c' d) : ArgumentsEnd c d

theorem MoreArguments.unique {c d d' : Cursor} (h : MoreArguments c d) (h' : MoreArguments c d') :
    d' = d := by
  induction h with
  | stop c hstop =>
    cases h' with
    | stop => rfl
    | next hc he => exact absurd he (hstop _ _ hc)
  | next hc he _ ih =>
    cases h' with
    | stop _ hstop => exact absurd he (hstop _ _ hc)
    | next hc' he' hmore =>
      rw [he] at he'
      cases he'
      exact ih hmore

theorem ArgumentsEnd.unique {c d d' : Cursor} (h : ArgumentsEnd c d) (h' : ArgumentsEnd c d') :
    d' = d := by
  cases h with
  | none hnone =>
    cases h' with
    | none => rfl
    | some he => exact absurd he (hnone _ _)
  | some he hmore =>
    cases h' with
    | none hnone => exact absurd he (hnone _ _)
    | some he' hmore' =>
      rw [he] at he'
      cases he'
      exact hmore.unique hmore'

theorem moreArguments_of_rounds {c d : Cursor} {es : List Expression} {f : Failure}
    (h : Rounds (followedBy (literal ",") expression) c es d)
    (hd : (followedBy (literal ",") expression d).result = .error f) : MoreArguments c d := by
  induction h with
  | nil c =>
    refine .stop c fun e c' hcomma he => ?_
    rw [followedBy_comma_ok.2 ⟨hcomma, he⟩] at hd
    cases hd
  | cons hr hrest ih =>
    obtain ⟨hcomma, he⟩ := followedBy_comma_ok.1 hr
    exact .next hcomma he (ih hd)

/-- An argument list that does not fail ends where no further argument can be read. -/
theorem argumentsEnd_of_ok {c d : Cursor} {es : List Expression}
    (h : (separatedList (literal ",") expression c).result = .ok (es, d)) : ArgumentsEnd c d := by
  rcases (separatedList_ok (onward_literal ",") advances_expression.onward
    sound_expression.consumes).1 h with
    ⟨rfl, rfl, f, hf, -⟩ | ⟨e, bs, c', rfl, he, hbs⟩
  · refine .none fun e c' he => ?_
    rw [hf] at he
    cases he
  · have hconsumes := sound_expression.consumes.followedBy (shrinks_literal ",")
    obtain ⟨hrounds, f, hf, -⟩ := (many_ok hconsumes).1 hbs
    exact .some he (moreArguments_of_rounds hrounds hf)

/-! ## Kinds of refusals -/

/-- Why no expression can be read. -/
inductive Refusal where
  | noExpression
  | fraction
  | outOfRange
  | noOpening
  | noClosing
  deriving DecidableEq

/-- What is said to have been expected. -/
def Refusal.Tells : Refusal → String → Prop
  | .noExpression, expected => expected = "true"
  | .fraction, expected => expected = "integer without fractional part"
  | .outOfRange, expected => ∃ tail, expected = "integer in i64 range" ++ tail
  | .noOpening, expected => expected = "Bracket: ("
  | .noClosing, expected => expected = "Bracket: )"

/-- Under the depth limit `D` the text is refused for that reason at that offset. -/
inductive RefusedAs (D : Nat) (text : String) : Refusal → Nat → Prop where
  | noExpression (hk : ∀ b, ¬ keyword b <+: text.toList)
    (hn : ∀ sign digits, IsNumeral sign digits → ¬ sign ++ digits <+: text.toList)
    (hs : Stops isNameStart text.toList) : RefusedAs D text .noExpression 0
  | fraction {sign digits rest : List Char} (h : NumeralAhead text.toList sign digits rest)
    (hp : rest.head? = some '.') : RefusedAs D text .fraction (Text.byteLength (sign ++ digits))
  | outOfRange {sign digits rest : List Char} (h : NumeralAhead text.toList sign digits rest)
    (hp : rest.head? ≠ some '.')
    (hv : numeralValue sign digits < -9223372036854775808 ∨
      9223372036854775807 < numeralValue sign digits) :
    RefusedAs D text .outOfRange (Text.byteLength (sign ++ digits))
  | noOpening {name rest : List Char} (hD : 1 ≤ D) (h : NameAhead text.toList name rest)
    (ho : rest.head? ≠ some '(') : RefusedAs D text .noOpening (Text.byteLength name)
  | noClosing {name rest : List Char} {d : Cursor} (h : NameAhead text.toList name rest)
    (ho : rest.head? = some '(') (hd : ArgumentsEnd (argumentsAt (atStart text D) name) d) :
    RefusedAs D text .noClosing d.position

/-! ## One kind and one place -/

section
variable {D : Nat} {text : String} {k : Refusal} {q : Nat}

theorem RefusedAs.of_stops (h : RefusedAs D text k q) (hs : Stops isNameStart text.toList)
    (hn : ∀ sign digits, IsNumeral sign digits → ¬ sign ++ digits <+: text.toList) :
    k = .noExpression ∧ q = 0 := by
  have hnumeral : ∀ {sign digits rest}, ¬ NumeralAhead text.toList sign digits rest := by
    intro sign digits rest h'
    exact hn sign digits h'.isNumeral ⟨rest, h'.eq_append.symm⟩
  cases h with
  | noExpression => exact ⟨rfl, rfl⟩
  | fraction h' => exact absurd h' hnumeral
  | outOfRange h' => exact absurd h' hnumeral
  | noOpening _ h' => exact absurd hs h'.not_stops
  | noClosing h' => exact absurd hs h'.not_stops

theorem RefusedAs.of_numeralAhead {sign digits rest : List Char} (h : RefusedAs D text k q)
    (hn : NumeralAhead text.toList sign digits rest) :
    k = (if rest.head? = some '.' then .fraction else .outOfRange) ∧
      q = Text.byteLength (sign ++ digits) := by
  cases h with
  | noExpression _ hnone =>
    exact absurd ⟨rest, hn.eq_append.symm⟩ (hnone sign digits hn.isNumeral)
  | fraction h' hp =>
    obtain ⟨rfl, rfl, rfl⟩ := hn.unique h'
    exact ⟨(if_pos hp).symm, rfl⟩
  | outOfRange h' hp =>
    obtain ⟨rfl, rfl, rfl⟩ := hn.unique h'
    exact ⟨(if_neg hp).symm, rfl⟩
  | noOpening _ h' => exact absurd hn h'.not_numeralAhead
  | noClosing h' => exact absurd hn h'.not_numeralAhead

theorem RefusedAs.of_nameAhead {name rest : List Char} (h : RefusedAs D text k q)
    (hn : NameAhead text.toList name rest) :
    (k = .noOpening ∧ rest.head? ≠ some '(' ∧ q = Text.byteLength name) ∨
      (k = .noClosing ∧ rest.head? = some '(' ∧
        ∃ d, ArgumentsEnd (argumentsAt (atStart text D) name) d ∧ q = d.position) := by
  cases h with
  | noExpression _ _ hs => exact absurd hs hn.not_stops
  | fraction h' => exact absurd h' hn.not_numeralAhead
  | outOfRange h' => exact absurd h' hn.not_numeralAhead
  | noOpening _ h' ho =>
    obtain ⟨rfl, rfl⟩ := hn.unique h'
    exact .inl ⟨rfl, ho, rfl⟩
  | noClosing h' ho hd =>
    obtain ⟨rfl, rfl⟩ := hn.unique h'
    exact .inr ⟨rfl, ho, _, hd, rfl⟩

/-- A text is refused for one reason and at one place. -/
theorem RefusedAs.unique {k' : Refusal} {q' : Nat} (h : RefusedAs D text k q)
    (h' : RefusedAs D text k' q') : k' = k ∧ q' = q := by
  cases h with
  | noExpression _ hn hs => exact h'.of_stops hs hn
  | fraction hn hp =>
    have := h'.of_numeralAhead hn
    rwa [if_pos hp] at this
  | outOfRange hn hp =>
    have := h'.of_numeralAhead hn
    rwa [if_neg hp] at this
  | noOpening _ hn ho =>
    rcases h'.of_nameAhead hn with ⟨hk, -, hq⟩ | ⟨-, ho', -⟩
    · exact ⟨hk, hq⟩
    · exact absurd ho' ho
  | noClosing hn ho hd =>
    rcases h'.of_nameAhead hn with ⟨-, ho', -⟩ | ⟨hk, -, d', hd', hq⟩
    · exact absurd ho ho'
    · rw [hd.unique hd'] at hq
      exact ⟨hk, hq⟩

end

/-! ## What is reported -/

/-- Behind the first word of a text. -/
theorem position_forward_atStart {text : String} {D : Nat} {word rest : List Char}
    (h : text.toList = word ++ rest) :
    ((atStart text D).forward word.length).position = Text.byteLength word := by
  have hw : Between (atStart text D) word _ := between_of_eq_append h
  rw [hw.position_eq]
  exact Nat.zero_add _

theorem refusedAs_of_error {text : String} {D : Nat} {f : Failure}
    (h : (expression (atStart text D)).result = .error f) (hf : f.fatal = false) :
    ∃ k : Refusal, RefusedAs D text k f.position ∧ k.Tells f.expected := by
  have hcase := evaluation_expression (atStart text D)
  generalize expression (atStart text D) = r at hcase h
  cases hcase with
  | boolean | number | call => cases h
  | tooDeep =>
    cases h
    cases hf
  | fatalArgument _ _ _ harg =>
    cases h
    rw [fatal_of_separatedList_error harg] at hf
    cases hf
  | fraction hn hp =>
    cases h
    refine ⟨.fraction, ?_, rfl⟩
    rw [position_forward_atStart hn.eq_append]
    exact .fraction hn hp
  | outOfRange hn hp hv tail =>
    cases h
    refine ⟨.outOfRange, ?_, tail, rfl⟩
    rw [position_forward_atStart hn.eq_append]
    exact .outOfRange hn hp hv
  | noOpening hn hd ho =>
    cases h
    refine ⟨.noOpening, ?_, rfl⟩
    rw [position_forward_atStart hn.eq_append]
    exact .noOpening hd hn ho
  | noClosing hn hd ho hes hc =>
    cases h
    exact ⟨.noClosing, .noClosing hn ho (argumentsEnd_of_ok hes), rfl⟩
  | nothing hn hs =>
    cases h
    exact ⟨.noExpression, .noExpression (not_keyword_of_stops hs)
      (fun _ _ => not_isPrefix_of_numeral_eq_none hn) hs, rfl⟩

/-- **Every refusal is of exactly one kind, and its kind and its place are what is reported.** -/
theorem refused_at (text : String) (D : Nat) {f : Failure}
    (h : (expression (atStart text D)).result = .error f) (hf : f.fatal = false) :
    ∃ k q, RefusedAs D text k q ∧ (∀ k' q', RefusedAs D text k' q' → k' = k ∧ q' = q) ∧
      k.Tells f.expected ∧ f.position = q := by
  obtain ⟨k, hk, htells⟩ := refusedAs_of_error h hf
  exact ⟨k, f.position, hk, fun _ _ h' => hk.unique h', htells, rfl⟩

/-- The argument cannot be read, but what is missed is the closing bracket in its place. -/
theorem refused_at_fraction :
    ∃ f, (expression (atStart "f(1.5)" 1)).result = .error f ∧ f.fatal = false ∧
      f.expected = "Bracket: )" ∧ f.position = 2 ∧
      ∃ k q, RefusedAs 1 "f(1.5)" k q ∧ (∀ k' q', RefusedAs 1 "f(1.5)" k' q' → k' = k ∧ q' = q) ∧
        k.Tells f.expected ∧ f.position = q := by
  let c : Cursor := atStart "f(1.5)" 1
  have hname : NameAhead c.ahead ['f'] ['(', '1', '.', '5', ')'] :=
    ⟨⟨by decide, by simp⟩, by decide, stops_cons.2 (by decide), rfl⟩
  have hnumeral : NumeralAhead (argumentsAt c ['f']).ahead [] ['1'] ['.', '5', ')'] :=
    ⟨⟨by decide, by decide, by simp⟩, stops_cons.2 (by decide), rfl⟩
  have harg : (expression (argumentsAt c ['f'])).result =
      .error { expected := "integer without fractional part", position := 3 } := by
    rw [expression_eq, expressionOf_of_numeral_refused hnumeral (number_of_point hnumeral rfl)]
    rfl
  have hargs : (arguments expression c ['f']).result = .ok ([], argumentsAt c ['f']) := by
    rw [arguments, separatedList_of_error harg rfl]
  have hcall := callOf_noClosing hname (by decide) rfl hargs (by decide)
  have hf : (expression c).result = .error { expected := "Bracket: )", position := 2 } := by
    rw [expression_eq, expressionOf_of_name_refused hname hcall rfl (by decide)]
    rfl
  exact ⟨_, hf, rfl, rfl, rfl, refused_at "f(1.5)" 1 hf rfl⟩

end Descent.Grammar
