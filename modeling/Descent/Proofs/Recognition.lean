import Descent.Proofs.Derivation
import Descent.Proofs.Evaluation

/-!
# Expressions are read as they are written

The parser of expressions succeeds exactly where a written form of an expression stands ahead that
what follows does not prolong, and then passes just that form (`expression_ok`). The limit that the
calls keep to is what the cursor's depth leaves of its limit.

Nothing is read that is not written: that is an induction along the recursion of the rule, through
the loop that reads the arguments of a call. Nothing that is written is missed: that is an induction
on derivations, in which every argument is seen to end before the comma or the bracket behind it.
-/

namespace Descent.Grammar

open Descent.Parser Descent.Cursor

/-- How deep calls may still nest at a cursor. -/
def room (c : Cursor) : Nat := c.maxDepth - c.depth

@[simp] theorem room_forward (c : Cursor) (n : Nat) : room (c.forward n) = room c := rfl

theorem room_of_between {c c' : Cursor} {word : List Char} (h : Between c word c') :
    room c' = room c := by
  rw [h.eq_forward, room_forward]

/-- Between `c` and `c'` stands a written form of `e`, which what follows does not prolong. -/
def Recognized (c : Cursor) (e : Expression) (c' : Cursor) : Prop :=
  ∃ word, Between c word c' ∧ Derives (room c) word e ∧ EndsBefore e c'.ahead

/-! ## Nothing is read that is not written -/

/-- `p` reads written forms of expressions only. -/
def Sound (p : Parser Expression) : Prop :=
  ∀ c e c', (p c).result = .ok (e, c') → Recognized c e c'

section
variable {p : Parser Expression} (hp : Sound p) {c c' : Cursor}
include hp

theorem Sound.advances : Advances p := by
  intro c e c' h
  obtain ⟨word, hw, -, -⟩ := hp c e c' h
  exact ⟨word.length, hw.eq_forward⟩

theorem Sound.consumes : Consumes p := by
  intro c e c' h
  obtain ⟨word, hw, hd, -⟩ := hp c e c' h
  have hpos := hd.length_pos
  rw [hw.ahead_eq, List.length_append]
  omega

theorem Sound.followedBy_comma {e : Expression}
    (h : (followedBy (literal ",") p c).result = .ok (e, c')) :
    ∃ word, Between c (',' :: word) c' ∧ Derives (room c) word e := by
  obtain ⟨hcomma, he⟩ := followedBy_comma_ok.1 h
  obtain ⟨word, hw, hd, -⟩ := hp _ e c' he
  exact ⟨word, (between_of_isPrefix (singleton_isPrefix.2 hcomma)).trans hw, hd⟩

theorem Sound.rounds {es : List Expression} (h : Rounds (followedBy (literal ",") p) c es c') :
    ∃ written : List (List Char × Expression),
      Between c ((written.map Prod.fst).flatMap (',' :: ·)) c' ∧ es = written.map Prod.snd ∧
        ∀ a ∈ written, Derives (room c) a.1 a.2 := by
  induction h with
  | nil c => exact ⟨[], .refl c, rfl, fun a ha => nomatch ha⟩
  | @cons c d c' e es hr hrest ih =>
    obtain ⟨word, hw, he⟩ := hp.followedBy_comma hr
    obtain ⟨written, ht, rfl, hall⟩ := ih
    rw [room_of_between hw] at hall
    exact ⟨(word, e) :: written, hw.trans ht, rfl, List.forall_mem_cons.2 ⟨he, hall⟩⟩

theorem Sound.separatedList {es : List Expression}
    (h : (Parser.separatedList (literal ",") p c).result = .ok (es, c')) :
    ∃ written : List (List Char × Expression),
      Between c ([','].intercalate (written.map Prod.fst)) c' ∧ es = written.map Prod.snd ∧
        ∀ a ∈ written, Derives (room c) a.1 a.2 := by
  rcases (separatedList_ok (onward_literal ",") hp.advances.onward hp.consumes).1 h with
    ⟨rfl, rfl, -⟩ | ⟨e, es, d, rfl, he, hes⟩
  · exact ⟨[], .refl c', rfl, fun a ha => nomatch ha⟩
  · obtain ⟨word, hw, hd, -⟩ := hp c e d he
    obtain ⟨written, ht, rfl, hall⟩ := hp.rounds (rounds_of_many hes)
    rw [room_of_between hw] at hall
    refine ⟨(word, e) :: written, ?_, rfl, List.forall_mem_cons.2 ⟨hd, hall⟩⟩
    rw [List.map_cons, intercalate_cons]
    exact hw.trans ht

end

/-- The text of a call, put together from its name and its arguments. -/
theorem between_call {c d : Cursor} {name rest inner : List Char} (h : c.ahead = name ++ rest)
    (ho : rest.head? = some '(') (hi : Between (argumentsAt c name) inner d)
    (hc : d.ahead.head? = some ')') :
    Between c (name ++ ['('] ++ inner ++ [')']) (d.forward 1).ascend := by
  obtain ⟨behind, rfl⟩ := List.head?_eq_some_iff.1 ho
  obtain ⟨tail, ht⟩ := List.head?_eq_some_iff.1 hc
  have hahead := hi.ahead_eq
  rw [ahead_argumentsAt h, ht] at hahead
  have hall : c.ahead = name ++ ['('] ++ inner ++ [')'] ++ tail := by
    rw [h, hahead]
    simp
  have hlen : (name ++ ['('] ++ inner ++ [')']).length = name.length + 1 + (inner.length + 1) := by
    simp only [List.length_append, List.length_singleton]
    omega
  rw [hi.eq_forward, ascend_argumentsAt, ← hlen]
  exact between_of_eq_append hall

theorem room_argumentsAt {c : Cursor} (name : List Char) (hd : c.depth < c.maxDepth) :
    room (argumentsAt c name) + 1 = room c := by
  show c.maxDepth - (c.depth + 1) + 1 = c.maxDepth - c.depth
  omega

theorem sound_expressionOf {p : Parser Expression} (hp : Sound p) : Sound (expressionOf p) := by
  intro c e c' h
  have hcase := evaluation hp.advances c
  generalize hr : expressionOf p c = r at hcase h
  cases hcase with
  | boolean hb =>
    cases h
    exact ⟨_, between_of_isPrefix hb, .boolean _ _, fun v hv => nomatch hv⟩
  | number hn hpoint hl hg =>
    cases h
    refine ⟨_, between_of_eq_append hn.eq_append, .number _ hn.isNumeral hl hg, ?_⟩
    rw [ahead_forward, hn.eq_append, List.drop_left]
    intro v _ d hd
    refine ⟨hn.stops d hd, ?_⟩
    rintro rfl
    exact hpoint hd
  | @call name rest hn hd ho es n hes hc =>
    cases h
    obtain ⟨written, hw, rfl, hall⟩ := hp.separatedList hes
    refine ⟨name ++ ['('] ++ [','].intercalate (written.map Prod.fst) ++ [')'], ?_, ?_,
      fun v hv => nomatch hv⟩
    · rw [← ascend_argumentsAt]
      exact between_call hn.eq_append ho hw hc
    · rw [← room_argumentsAt name hd]
      exact .call hn.isName hn.name_not_keyword hall
  | fraction | outOfRange | tooDeep | noOpening | fatalArgument | noClosing | nothing => cases h

theorem sound_expression : Sound expression :=
  fix_induction guarded_expressionOf id (fun _ => rfl)
    (Q := fun c r _ => ∀ e c', r.result = .ok (e, c') → Recognized c e c')
    (fun _ _ _ h => nomatch h) (fun _ hp => sound_expressionOf hp)

/-! ## Argument by argument -/

/-- What holds of further arguments, each with a comma in front, if it holds where there is no comma,
where no argument stands behind one, and of an argument with those behind it. -/
theorem furtherArguments_induction {motive : Cursor → Run (List Expression) → Prop}
    (noComma : ∀ c : Cursor, c.ahead.head? ≠ some ',' → motive c (.succeed [] c))
    (refused : ∀ (c : Cursor) (f : Failure), c.ahead.head? = some ',' →
      (c.forward 1).ahead.length < c.ahead.length →
      (expression (c.forward 1)).result = .error f →
        motive c { result := endOfList [] f c, trace := (expression (c.forward 1)).trace })
    (argument : ∀ (c d : Cursor) (e : Expression), (c.forward 1).ahead.length < c.ahead.length →
      (expression (c.forward 1)).result = .ok (e, d) →
      d.ahead.length < (c.forward 1).ahead.length →
      motive d (many (fun _ => []) (followedBy (literal ",") expression) d) →
        motive c (((many (fun _ => []) (followedBy (literal ",") expression) d).map (e :: ·)).after
          (expression (c.forward 1)).trace))
    (c : Cursor) : motive c (many (fun _ => []) (followedBy (literal ",") expression) c) := by
  induction hn : c.ahead.length using Nat.strongRecOn generalizing c with
  | ind n ih =>
    subst hn
    by_cases hcomma : c.ahead.head? = some ','
    · have hround := followedBy_comma (p := expression) hcomma
      have hless : (c.forward 1).ahead.length < c.ahead.length := by
        obtain ⟨tail, ht⟩ := List.head?_eq_some_iff.1 hcomma
        simp [ht]
      cases hr : (expression (c.forward 1)).result with
      | error f =>
        rw [many, hround]
        simp only [hr]
        exact refused c f hcomma hless hr
      | ok found =>
        obtain ⟨e, d⟩ := found
        have hshort := sound_expression.consumes _ e d hr
        have hless' := Nat.lt_trans hshort hless
        rw [many_of_ok (by rw [hround, hr]) hless', hround]
        exact argument c d e hless hr hshort (ih _ hless' d rfl)
    · have hround := followedBy_no_comma (p := expression) hcomma
      rw [many_of_error (by rw [hround]; rfl) rfl, hround]
      exact noComma c hcomma

/-! ## Nothing that is written is missed -/

/-- Wherever the limit leaves room for `d` levels, `word` is read as `e`. -/
def ReadAs (d : Nat) (word : List Char) (e : Expression) : Prop :=
  ∀ c c', Between c word c' → room c = d → EndsBefore e c'.ahead →
    (expression c).result = .ok (e, c')

theorem readAs_boolean (d : Nat) (b : Bool) : ReadAs d (keyword b) (.boolean b) := by
  intro c c' hw hd hends
  have hk : keyword b <+: c.ahead := ⟨c'.ahead, hw.ahead_eq.symm⟩
  rw [expression_eq, expressionOf_of_keyword hk, hw.eq_forward]
  rfl

theorem readAs_number (d : Nat) {sign digits : List Char} (h : IsNumeral sign digits)
    (hl : least ≤ numeralValue sign digits) (hg : numeralValue sign digits ≤ greatest) :
    ReadAs d (sign ++ digits) (.number (numeralValue sign digits)) := by
  intro c c' hw hd hends
  have hn : NumeralAhead c.ahead sign digits c'.ahead := ⟨h, hends.stops, hw.ahead_eq⟩
  rw [expression_eq, expressionOf_of_number (not_keyword_of_stops hn.stops_isNameStart)
    (number_of_in_range hn hends.head_ne hl hg), hw.eq_forward]

/-- What stands right behind an argument. -/
def BehindArgument (rest : List Char) : Prop := rest.head? = some ',' ∨ rest.head? = some ')'

theorem BehindArgument.endsBefore {rest : List Char} (h : BehindArgument rest) (e : Expression) :
    EndsBefore e rest := by
  rcases h with h | h <;>
  · obtain ⟨tail, rfl⟩ := List.head?_eq_some_iff.1 h
    exact endsBefore_cons e tail (by decide) (by decide)

theorem BehindArgument.flatMap_comma {rest : List Char} (h : BehindArgument rest)
    (others : List (List Char)) : BehindArgument (others.flatMap (',' :: ·) ++ rest) := by
  cases others with
  | nil => exact h
  | cons word others => exact .inl rfl

/-- An argument is read as far as it goes, whether others stand behind it or not. -/
theorem argument_of_readAs {d : Nat} {word : List Char} {e : Expression} (h : ReadAs d word e)
    {others : List (List Char)} {c c' : Cursor}
    (hw : Between c (word ++ others.flatMap (',' :: ·)) c') (hd : room c = d)
    (hc : BehindArgument c'.ahead) :
    (expression c).result = .ok (e, c.forward word.length) ∧
      Between (c.forward word.length) (others.flatMap (',' :: ·)) c' := by
  obtain ⟨hword, hrest⟩ := hw.split
  refine ⟨h _ _ hword hd ?_, hrest⟩
  rw [hrest.ahead_eq]
  exact (hc.flatMap_comma others).endsBefore e

theorem rounds_of_readAs {d : Nat} {written : List (List Char × Expression)}
    (h : ∀ a ∈ written, ReadAs d a.1 a.2) {c c' : Cursor}
    (hw : Between c ((written.map Prod.fst).flatMap (',' :: ·)) c') (hd : room c = d)
    (hc : BehindArgument c'.ahead) :
    Rounds (followedBy (literal ",") expression) c (written.map Prod.snd) c' := by
  refine rounds_of_commas (fun a ha others e he => ?_) hw
  have hroom : room e = d := by rw [← room_of_between he, room_of_between hw, hd]
  exact (argument_of_readAs (h a ha) he hroom hc).1

/-- No argument starts with the closing bracket. -/
theorem expression_refused_of_closing {c : Cursor} (h : c.ahead.head? = some ')') :
    expression c = refused c [] { expected := "true", position := c.position } := by
  obtain ⟨tail, ht⟩ := List.head?_eq_some_iff.1 h
  have hn : numeral c.ahead = none := by
    rw [ht]
    rfl
  have hs : Stops isNameStart c.ahead := by
    rw [ht]
    exact stops_cons.2 (by decide)
  rw [expression_eq, expressionOf_of_nothing hn hs]

theorem expression_of_closing {c : Cursor} (h : c.ahead.head? = some ')') :
    (expression c).result = .error { expected := "true", position := c.position } := by
  rw [expression_refused_of_closing h]
  rfl

theorem separatedList_of_readAs {d : Nat} {written : List (List Char × Expression)}
    (h : ∀ a ∈ written, ReadAs d a.1 a.2) {c c' : Cursor}
    (hw : Between c ([','].intercalate (written.map Prod.fst)) c') (hd : room c = d)
    (hc : c'.ahead.head? = some ')') :
    (separatedList (literal ",") expression c).result = .ok (written.map Prod.snd, c') := by
  have hstop : (followedBy (literal ",") expression c').result =
      .error { expected := ",", position := c'.position } := by
    refine followedBy_comma_error.2 (.inl ⟨?_, rfl⟩)
    rw [hc]
    decide
  refine (separatedList_ok (onward_literal ",") sound_expression.advances.onward
    sound_expression.consumes).2 ?_
  cases written with
  | nil =>
    have hcc : c' = c := hw.eq_forward
    subst hcc
    exact .inl ⟨rfl, rfl, _, expression_of_closing hc, rfl⟩
  | cons a written =>
    obtain ⟨ha, hothers⟩ := List.forall_mem_cons.1 h
    rw [List.map_cons, intercalate_cons] at hw
    obtain ⟨he, hrest⟩ := argument_of_readAs ha hw hd (.inr hc)
    have hconsumes := sound_expression.consumes.followedBy (shrinks_literal ",")
    have hrounds := rounds_of_readAs hothers hrest hd (.inr hc)
    exact .inr ⟨a.2, written.map Prod.snd, _, rfl, he, (many_ok hconsumes).2 ⟨hrounds, _, hstop, rfl⟩⟩

theorem readAs_call {d : Nat} {name : List Char} {written : List (List Char × Expression)}
    (hn : IsName name) (hk : ∀ b, ¬ keyword b <+: name) (h : ∀ a ∈ written, ReadAs d a.1 a.2) :
    ReadAs (d + 1) (name ++ ['('] ++ [','].intercalate (written.map Prod.fst) ++ [')'])
      (.call (String.ofList name) (written.map Prod.snd)) := by
  intro c c' hw hd hends
  let inner := [','].intercalate (written.map Prod.fst)
  have hall : c.ahead = name ++ '(' :: (inner ++ ')' :: c'.ahead) := by
    rw [hw.ahead_eq]
    simp [inner]
  have hname : NameAhead c.ahead name ('(' :: (inner ++ ')' :: c'.ahead)) := by
    rw [hall]
    exact nameAhead_append hn hk (stops_cons.2 (by decide))
  have hdepth : c.depth < c.maxDepth := by
    unfold room at hd
    omega
  have hi := between_of_eq_append (ahead_argumentsAt hall)
  have hc : ((argumentsAt c name).forward inner.length).ahead.head? = some ')' := by
    rw [ahead_forward, ahead_argumentsAt hall, List.drop_left]
    rfl
  have hes := separatedList_of_readAs h hi (by have := room_argumentsAt name hdepth; omega) hc
  rw [expression_eq, expressionOf_of_closing hname hdepth rfl hes hc, ← ascend_argumentsAt,
    (between_call hall rfl hi hc).eq_forward, hw.eq_forward]

theorem readAs_of_derives {d : Nat} {word : List Char} {e : Expression} (h : Derives d word e) :
    ReadAs d word e := by
  induction h with
  | boolean d b => exact readAs_boolean d b
  | number d h hl hg =>
    exact readAs_number d h hl hg
  | call hn hk ha ih => exact readAs_call hn hk ih

/-- **What the parser of expressions recognises are the written forms that end where they end.** -/
theorem expression_ok {c c' : Cursor} {e : Expression} :
    (expression c).result = .ok (e, c') ↔ Recognized c e c' := by
  constructor
  · intro h
    exact sound_expression c e c' h
  · rintro ⟨word, hw, hd, hends⟩
    exact readAs_of_derives hd c c' hw rfl hends

end Descent.Grammar
