import Descent.Proofs.DepthLimit

/-!
# Renderings are unambiguous

A rendering can be told from all others, and where it ends can be seen without looking further: no
rendering is the beginning of another one (`render_unambiguous`). Each starts with a name, a bracket
behind it and then the contents (`toList_render`). `Number` and `Boolean` may also be the names of calls,
but the contents of a call start with a square bracket, which no number and no truth value does.

* `Named e` : the targets of all calls in `e` are names, as they are in every expression that is read;
* `Recoverable e` : the rendering of `e` can be cut off the front of a text in one way only.
-/

namespace Descent

open Descent.Grammar

/-- Words of one class are separated by what stops them. -/
theorem append_inj_of_stops {p : Char → Bool} {word word' rest rest' : List Char}
    (hw : ∀ c ∈ word, p c = true) (hw' : ∀ c ∈ word', p c = true) (hr : Stops p rest)
    (hr' : Stops p rest') (h : word ++ rest = word' ++ rest') : word = word' ∧ rest = rest' := by
  have hword : (word ++ rest).takeWhile p = word := takeWhile_append_of_stops hw hr
  have hword' : (word' ++ rest').takeWhile p = word' := takeWhile_append_of_stops hw' hr'
  rw [h, hword'] at hword
  subst hword
  exact ⟨rfl, List.append_cancel_left h⟩

namespace Grammar

theorem isNumeral_toDigits {sign : List Char} (hs : sign ∈ [[], ['+'], ['-']]) (n : Nat) :
    IsNumeral sign (Nat.toDigits 10 n) :=
  ⟨hs, Nat.toDigits_ne_nil, fun _ hd => Nat.isDigit_of_mem_toDigits (by decide) (by decide) hd⟩

/-- A number is written as a numeral that stands for it. -/
theorem exists_numeral_toString (v : Int) :
    ∃ sign digits, IsNumeral sign digits ∧ (toString v).toList = sign ++ digits ∧
      numeralValue sign digits = v := by
  cases v with
  | ofNat n =>
    refine ⟨[], Nat.toDigits 10 n, isNumeral_toDigits (by decide) n, Nat.toList_repr, ?_⟩
    rw [numeralValue, if_neg (by decide), Nat.ofDigitChars_ten_toDigits]
    rfl
  | negSucc n =>
    refine ⟨['-'], Nat.toDigits 10 (n + 1), isNumeral_toDigits (by decide) (n + 1), ?_, ?_⟩
    · have hwritten : toString (Int.negSucc n) = "-" ++ (n + 1).repr := rfl
      rw [hwritten, String.toList_append, Nat.toList_repr]
      rfl
    · rw [numeralValue, if_pos rfl, Nat.ofDigitChars_ten_toDigits]
      rfl

/-- Numbers with a bracket behind them differ if they are written differently. -/
theorem toString_append_inj {v v' : Int} {rest rest' : List Char}
    (h : (toString v).toList ++ ')' :: rest = (toString v').toList ++ ')' :: rest') :
    v = v' ∧ rest = rest' := by
  obtain ⟨sign, digits, hn, hv, rfl⟩ := exists_numeral_toString v
  obtain ⟨sign', digits', hn', hv', rfl⟩ := exists_numeral_toString v'
  rw [hv, hv'] at h
  have hahead : NumeralAhead (sign ++ digits ++ ')' :: rest) sign digits (')' :: rest) :=
    ⟨hn, stops_cons.2 (by decide), rfl⟩
  have hahead' : NumeralAhead (sign ++ digits ++ ')' :: rest) sign' digits' (')' :: rest') :=
    ⟨hn', stops_cons.2 (by decide), h⟩
  obtain ⟨rfl, rfl, hrest⟩ := hahead.unique hahead'
  exact ⟨rfl, (List.cons.inj hrest).2.symm⟩

theorem keyword_append_inj {b b' : Bool} {rest rest' : List Char}
    (h : keyword b ++ ')' :: rest = keyword b' ++ ')' :: rest') : b = b' ∧ rest = rest' := by
  have hprefix : keyword b' <+: keyword b ++ ')' :: rest := ⟨')' :: rest', h.symm⟩
  obtain rfl : b = b' := keyword_unique (List.prefix_append _ _) hprefix
  exact ⟨rfl, (List.cons.inj (List.append_cancel_left h)).2⟩

end Grammar

namespace Expression

/-! ## Names and contents -/

/-- Every call in the expression has a name as its target. -/
inductive Named : Expression → Prop where
  | number (value : Int) : Named (.number value)
  | boolean (value : Bool) : Named (.boolean value)
  | call {target : String} {arguments : List Expression} (ht : IsName target.toList)
    (ha : ∀ e ∈ arguments, Named e) : Named (.call target arguments)

/-- The name that a rendering starts with. -/
def heading : Expression → List Char
  | .number _ => "Number".toList
  | .boolean _ => "Boolean".toList
  | .call target _ => target.toList

/-- What stands between the round brackets of a rendering. -/
def contents : Expression → List Char
  | .number value => (toString value).toList
  | .boolean value => keyword value
  | .call _ arguments => '[' :: (renderAll arguments).toList ++ [']']

theorem toList_render (e : Expression) :
    e.render.toList = e.heading ++ '(' :: e.contents ++ [')'] := by
  cases e with
  | number value =>
    rw [render, String.toList_append, String.toList_append]
    rfl
  | boolean value => cases value <;> rfl
  | call target arguments =>
    rw [render, String.toList_append, String.toList_append, String.toList_append]
    show target.toList ++ ['(', '['] ++ (renderAll arguments).toList ++ [']', ')'] =
      target.toList ++ '(' :: ('[' :: (renderAll arguments).toList ++ [']']) ++ [')']
    simp only [List.append_assoc, List.cons_append, List.nil_append]

theorem Named.isName_heading {e : Expression} (h : e.Named) : IsName e.heading := by
  cases h with
  | number | boolean => exact ⟨by decide, List.all_eq_true.1 (by decide)⟩
  | call ht => exact ht

theorem toList_renderAll_cons (e : Expression) (es : List Expression) :
    (renderAll (e :: es)).toList =
      e.render.toList ++ es.flatMap fun e => ',' :: ' ' :: e.render.toList := by
  induction es generalizing e with
  | nil => simp [renderAll]
  | cons e' es ih =>
    rw [renderAll, String.toList_append, ih, String.toList_append]
    · simp
    · simp

variable {e e' : Expression} {rest rest' : List Char}

/-- Equal texts that start with renderings have the name and the contents in common. -/
theorem render_append_inj (h : e.Named) (h' : e'.Named)
    (heq : e.render.toList ++ rest = e'.render.toList ++ rest') :
    e.heading = e'.heading ∧ e.contents ++ ')' :: rest = e'.contents ++ ')' :: rest' := by
  have hopening : ∀ more, Stops isNameChar ('(' :: more) := fun _ => stops_cons.2 (by decide)
  rw [toList_render, toList_render, List.append_assoc, List.append_assoc, List.cons_append,
    List.cons_append, List.append_assoc, List.append_assoc] at heq
  obtain ⟨hheading, hbehind⟩ := append_inj_of_stops h.isName_heading.isNameChar
    h'.isName_heading.isNameChar (hopening _) (hopening _) heq
  exact ⟨hheading, (List.cons.inj hbehind).2⟩

/-- The contents of a number do not start like those of a call. -/
theorem toString_append_ne (value : Int) (rest more : List Char) :
    (toString value).toList ++ rest ≠ '[' :: more := by
  obtain ⟨sign, digits, hn, hwritten, -⟩ := exists_numeral_toString value
  have hnone : numeral ('[' :: more) = none := rfl
  intro heq
  exact not_isPrefix_of_numeral_eq_none hnone hn ⟨rest, by rw [← hwritten, heq]⟩

theorem keyword_append_ne (value : Bool) (rest more : List Char) :
    keyword value ++ rest ≠ '[' :: more := by
  intro heq
  cases value with
  | false => exact absurd (List.cons.inj heq).1 (by decide)
  | true => exact absurd (List.cons.inj heq).1 (by decide)

/-! ## Cutting off a rendering -/

/-- A text starts with the rendering of `e` and something behind it in one way only. -/
def Recoverable (e : Expression) : Prop :=
  ∀ e' rest rest', Named e' → e.render.toList ++ rest = e'.render.toList ++ rest' →
    e = e' ∧ rest = rest'

/-- What follows an argument is a comma or the bracket that closes the list. -/
theorem furtherArguments_inj {es es' : List Expression} (h : ∀ e ∈ es, Recoverable e)
    (h' : ∀ e ∈ es', Named e)
    (heq : (es.flatMap fun e => ',' :: ' ' :: e.render.toList) ++ ']' :: rest =
      (es'.flatMap fun e => ',' :: ' ' :: e.render.toList) ++ ']' :: rest') :
    es = es' ∧ rest = rest' := by
  induction es generalizing es' with
  | nil =>
    cases es' with
    | nil => exact ⟨rfl, (List.cons.inj heq).2⟩
    | cons e' es' => simp at heq
  | cons e es ih =>
    cases es' with
    | nil => simp at heq
    | cons e' es' =>
      obtain ⟨he, hes⟩ := List.forall_mem_cons.1 h
      obtain ⟨he', hes'⟩ := List.forall_mem_cons.1 h'
      simp only [List.flatMap_cons, List.cons_append, List.append_assoc, List.cons.injEq,
        true_and] at heq
      obtain ⟨rfl, hbehind⟩ := he _ _ _ he' heq
      obtain ⟨rfl, hrest⟩ := ih hes hes' hbehind
      exact ⟨rfl, hrest⟩

/-- A rendering does not start with the bracket that ends an argument list. -/
theorem Named.render_append_ne (h : e.Named) (rest more : List Char) :
    e.render.toList ++ rest ≠ ']' :: more := by
  have hname := h.isName_heading
  rw [toList_render]
  cases hheading : e.heading with
  | nil =>
    rw [hheading] at hname
    exact hname.elim
  | cons first others =>
    rw [hheading] at hname
    intro heq
    have hfirst : first = ']' := (List.cons.inj heq).1
    exact absurd (hfirst ▸ hname.1) (by decide)

theorem arguments_inj {es es' : List Expression} (hn : ∀ e ∈ es, Named e)
    (h : ∀ e ∈ es, Recoverable e) (h' : ∀ e ∈ es', Named e)
    (heq : (renderAll es).toList ++ ']' :: rest = (renderAll es').toList ++ ']' :: rest') :
    es = es' ∧ rest = rest' := by
  cases es with
  | nil =>
    cases es' with
    | nil => exact ⟨rfl, (List.cons.inj heq).2⟩
    | cons e' es' =>
      rw [toList_renderAll_cons, List.append_assoc] at heq
      exact absurd heq.symm ((h' e' List.mem_cons_self).render_append_ne _ _)
  | cons e es =>
    cases es' with
    | nil =>
      rw [toList_renderAll_cons, List.append_assoc] at heq
      exact absurd heq ((hn e List.mem_cons_self).render_append_ne _ _)
    | cons e' es' =>
      obtain ⟨he, hes⟩ := List.forall_mem_cons.1 h
      obtain ⟨he', hes'⟩ := List.forall_mem_cons.1 h'
      rw [toList_renderAll_cons, toList_renderAll_cons, List.append_assoc, List.append_assoc] at heq
      obtain ⟨rfl, hbehind⟩ := he _ _ _ he' heq
      obtain ⟨rfl, hrest⟩ := furtherArguments_inj hes hes' hbehind
      exact ⟨rfl, hrest⟩

theorem heading_number_ne (value : Int) (value' : Bool) :
    (number value).heading ≠ (boolean value').heading :=
  show "Number".toList ≠ "Boolean".toList by decide

/-- Renderings can be cut off, whatever follows them. -/
theorem Named.recoverable (h : e.Named) : Recoverable e := by
  induction h with
  | number value =>
    intro e' rest rest' h' heq
    obtain ⟨hheading, hcontents⟩ := render_append_inj (.number value) h' heq
    cases h' with
    | number value' =>
      obtain ⟨rfl, hrest⟩ := toString_append_inj hcontents
      exact ⟨rfl, hrest⟩
    | boolean value' => exact absurd hheading (heading_number_ne value value')
    | call => exact absurd hcontents (toString_append_ne _ _ _)
  | boolean value =>
    intro e' rest rest' h' heq
    obtain ⟨hheading, hcontents⟩ := render_append_inj (.boolean value) h' heq
    cases h' with
    | number value' => exact absurd hheading.symm (heading_number_ne value' value)
    | boolean value' =>
      obtain ⟨rfl, hrest⟩ := keyword_append_inj hcontents
      exact ⟨rfl, hrest⟩
    | call => exact absurd hcontents (keyword_append_ne _ _ _)
  | @call target arguments ht ha ih =>
    intro e' rest rest' h' heq
    obtain ⟨hheading, hcontents⟩ := render_append_inj (.call ht ha) h' heq
    cases h' with
    | number value' => exact absurd hcontents.symm (toString_append_ne _ _ _)
    | boolean value' => exact absurd hcontents.symm (keyword_append_ne _ _ _)
    | @call target' arguments' ht' ha' =>
      obtain rfl : target = target' := String.toList_inj.1 hheading
      simp only [contents, List.cons_append, List.append_assoc, List.nil_append, List.cons.injEq,
        true_and] at hcontents
      obtain ⟨rfl, hbehind⟩ := arguments_inj ha ih ha' hcontents
      exact ⟨rfl, (List.cons.inj hbehind).2⟩

end Expression

/-! ## What is read has names -/

theorem Grammar.Derives.named {D : Nat} {text : List Char} {e : Expression} (h : Derives D text e) :
    e.Named := by
  induction h with
  | boolean d b => exact .boolean b
  | number d h hl hg => exact .number _
  | @call d name written hn hk ha ih =>
    refine .call (by rwa [String.toList_ofList]) fun e he => ?_
    obtain ⟨a, ha, rfl⟩ := List.mem_map.1 he
    exact ih a ha

/-- **Expressions whose calls have names, as all have that are read, are rendered differently if they
differ, and the rendering of one is not the beginning of that of another one.** -/
theorem Expression.render_unambiguous :
    (∀ options text e, (parseWith options text).result = .ok e → e.Named) ∧
    ∀ e e' : Expression, e.Named → e'.Named →
      (e.render = e'.render → e = e') ∧ (e.render.toList <+: e'.render.toList → e = e') := by
  refine ⟨fun options text e h => ?_, fun e e' he he' => ?_⟩
  · obtain ⟨word, rest, -, hd, -⟩ := derives_of_ok h
    exact hd.named
  · have hprefix : e.render.toList <+: e'.render.toList → e = e' := by
      rintro ⟨rest, hrest⟩
      rw [← List.append_nil e'.render.toList] at hrest
      exact (he.recoverable e' rest [] he' hrest).1
    exact ⟨fun heq => hprefix (heq ▸ List.prefix_refl _), hprefix⟩

/-- A call of `Number` is told from a number. -/
theorem Expression.render_unambiguous_number :
    (parseWith .strict "Number(1)").result = .ok (.call "Number" [.number 1]) ∧
      (number 1).render = "Number(1)" ∧ (call "Number" [.number 1]).render = "Number([Number(1)])" ∧
      (call "Number" [.number 1]).Named ∧
      ¬ (number 1).render.toList <+: (call "Number" [.number 1]).render.toList := by
  have hone : Derives 0 ['1'] (.number 1) :=
    @Derives.number 0 [] ['1'] ⟨by decide, by decide, by simp⟩ (by decide) (by decide)
  have hcall : Derives defaultMaxDepth "Number(1)".toList (.call "Number" [.number 1]) :=
    @Derives.call 63 "Number".toList [(['1'], .number 1)]
      ⟨by decide, List.all_eq_true.1 (by decide)⟩ (by decide)
      (List.forall_mem_singleton.2 (hone.of_callDepth_le (Nat.zero_le 63)))
  have hparse : (parseWith .strict "Number(1)").result = .ok (.call "Number" [.number 1]) :=
    strict_of_derives hcall
  obtain ⟨hread, hrendered⟩ := render_unambiguous
  have hnamed := hread _ _ _ hparse
  refine ⟨hparse, rfl, rfl, hnamed, fun hprefix => ?_⟩
  exact absurd ((hrendered _ _ (.number 1) hnamed).2 hprefix) (by simp)

end Descent
