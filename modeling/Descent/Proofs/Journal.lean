import Descent.Proofs.Modes
import Descent.Proofs.Sweep
import Descent.Proofs.Walk

/-!
# What a successful parse tells

In a parse that succeeds hardly an attempt fails. A truth value is found at once. For a number and for a
call one is looked for in vain before, which an exhausted choice of two tells. Of the expressions that
are looked for only the one in front of the closing bracket of a call without arguments is missing, and
it leaves an exhausted choice of two and one of three. So the expression says how much was told.

* `Expression.nodes` : an expression and those within it;
* `Tally es t` : `t` is as much as is told when the expressions `es` are read;
* `tally_expression` : so much an expression that is read tells;
* `journal_of_ok` : the journal of a parse that succeeds.
-/

namespace Descent

/-! ## Expressions within an expression -/

namespace Expression

mutual

/-- The expression, and then those within it. -/
def nodes : Expression → List Expression
  | .number value => [.number value]
  | .boolean value => [.boolean value]
  | .call target arguments => .call target arguments :: nodesOfAll arguments

def nodesOfAll : List Expression → List Expression
  | [] => []
  | e :: es => e.nodes ++ nodesOfAll es

end

def isNumber : Expression → Bool
  | .number _ => true
  | _ => false

def isCall : Expression → Bool
  | .call _ _ => true
  | _ => false

/-- A call without arguments. -/
def isBareCall : Expression → Bool
  | .call _ [] => true
  | _ => false

theorem nodesOfAll_append (es es' : List Expression) :
    nodesOfAll (es ++ es') = nodesOfAll es ++ nodesOfAll es' := by
  induction es with
  | nil => rfl
  | cons e es ih => rw [List.cons_append, nodesOfAll, nodesOfAll, ih, List.append_assoc]

theorem nodesOfAll_singleton (e : Expression) : nodesOfAll [e] = e.nodes := List.append_nil _

end Expression

open Expression

/-! ## How much is told -/

/-- The event tells that a choice of two or three expected `true` where it was tried. -/
def Event.Misses (ev : Event) : Prop :=
  ∃ n p, (n = 2 ∨ n = 3) ∧ ev = .choiceExhausted n p { expected := "true", position := p }

/-- The trace is as much as is told when the expressions are read. -/
structure Tally (es : List Expression) (t : Trace) : Prop where
  misses : ∀ ev ∈ t, ev.Misses
  twos : (exhaustedAt 2 t).length =
    (nodesOfAll es).countP isNumber + (nodesOfAll es).countP isCall + (nodesOfAll es).countP isBareCall
  threes : (exhaustedAt 3 t).length = (nodesOfAll es).countP isBareCall

namespace Tally

variable {es es' : List Expression} {s t : Trace}

theorem nil : Tally [] [] := ⟨fun _ h => (nomatch h), rfl, rfl⟩

theorem append (hs : Tally es s) (ht : Tally es' t) : Tally (es ++ es') (s ++ t) where
  misses := List.forall_mem_append.2 ⟨hs.misses, ht.misses⟩
  twos := by
    simp only [exhaustedAt_append, nodesOfAll_append, List.length_append, List.countP_append, hs.twos,
      ht.twos]
    omega
  threes := by
    simp only [exhaustedAt_append, nodesOfAll_append, List.length_append, List.countP_append, hs.threes,
      ht.threes]

theorem boolean (b : Bool) : Tally [.boolean b] [] := ⟨fun _ h => (nomatch h), rfl, rfl⟩

theorem misses_noKeyword (c : Cursor) : (Grammar.noKeyword c).Misses := ⟨2, _, .inl rfl, rfl⟩

theorem number (v : Int) (c : Cursor) : Tally [.number v] [Grammar.noKeyword c] :=
  ⟨List.forall_mem_singleton.2 (misses_noKeyword c), rfl, rfl⟩

/-- The event of the call itself comes before those of its arguments. -/
theorem call (target : String) (c : Cursor) (hne : es ≠ []) (ht : Tally es t) :
    Tally [.call target es] (Grammar.noKeyword c :: t) := by
  have hnodes : nodesOfAll [.call target es] = .call target es :: nodesOfAll es := nodesOfAll_singleton _
  have hbare : isBareCall (.call target es) = false := by
    cases es with
    | nil => exact absurd rfl hne
    | cons e es => rfl
  refine ⟨List.forall_mem_cons.2 ⟨misses_noKeyword c, ht.misses⟩, ?_, ?_⟩
  · have htwos : exhaustedAt 2 (Grammar.noKeyword c :: t) = c.position :: exhaustedAt 2 t := rfl
    rw [htwos, List.length_cons, ht.twos, hnodes]
    simp only [List.countP_cons, hbare, isNumber, isCall, Bool.false_eq_true, if_false, if_true]
    omega
  · have hthrees : exhaustedAt 3 (Grammar.noKeyword c :: t) = exhaustedAt 3 t := rfl
    rw [hthrees, ht.threes, hnodes]
    simp only [List.countP_cons, hbare, Bool.false_eq_true, if_false, Nat.add_zero]

/-- Without arguments, an expression is looked for at the closing bracket in vain. -/
theorem bareCall (target : String) (c d : Cursor) :
    Tally [.call target []] (Grammar.noKeyword c ::
      [Grammar.noKeyword d, .choiceExhausted 3 d.position { expected := "true", position := d.position }]) := by
  refine ⟨?_, rfl, rfl⟩
  refine List.forall_mem_cons.2 ⟨misses_noKeyword c, List.forall_mem_cons.2 ⟨misses_noKeyword d, ?_⟩⟩
  exact List.forall_mem_singleton.2 ⟨3, _, .inr rfl, rfl⟩

end Tally

/-! ## Expressions that are read -/

namespace Grammar

open Descent.Parser

/-- If an expression is read at `c`, that tells as much as the expression says. -/
def Tallied (c : Cursor) : Prop :=
  ∀ e d, (expression c).result = .ok (e, d) → Tally [e] (expression c).trace

/-- In front of a closing bracket no comma was found in vain. -/
theorem tally_many {c d : Cursor} {es : List Expression}
    (h : ∀ c' : Cursor, c'.ahead.length < c.ahead.length → Tallied c')
    (hes : (many (fun _ => []) (followedBy (literal ",") expression) c).result = .ok (es, d))
    (hd : d.ahead.head? = some ')') :
    Tally es (many (fun _ => []) (followedBy (literal ",") expression) c).trace := by
  revert h es
  refine furtherArguments_induction (motive := fun c r => ∀ {es},
    (∀ c' : Cursor, c'.ahead.length < c.ahead.length → Tallied c') → r.result = .ok (es, d) →
      Tally es r.trace) ?_ ?_ ?_ c
  · intro c _ es _ hes
    cases hes
    exact .nil
  · -- the list goes back in front of the comma, where the bracket is not
    intro c f hcomma _ _ es _ hes
    obtain ⟨-, -, rfl⟩ := endOfList_ok hes
    rw [hcomma] at hd
    exact absurd hd (by decide)
  · intro c c' e hless he hshort ih es h hes
    obtain ⟨es', hes', rfl⟩ := Run.map_ok.1 hes
    exact (h _ hless e c' he).append (ih (fun c'' hc'' => h c'' (by omega)) hes')

/-- The arguments of a call, up to its closing bracket. -/
theorem tally_call {c d : Cursor} {es : List Expression} (target : String) (outer : Cursor)
    (h : ∀ c' : Cursor, c'.ahead.length ≤ c.ahead.length → Tallied c')
    (hes : (separatedList (literal ",") expression c).result = .ok (es, d))
    (hd : d.ahead.head? = some ')') :
    Tally [.call target es] (noKeyword outer :: (separatedList (literal ",") expression c).trace) := by
  rcases (separatedList_ok (onward_literal ",") advances_expression.onward
    sound_expression.consumes).1 hes with
    ⟨rfl, rfl, f, hf, hfatal⟩ | ⟨e, es, c', rfl, he, hes'⟩
  · have htold : (separatedList (literal ",") expression d).trace = (expression d).trace := by
      rw [separatedList_of_error hf hfatal]
    rw [htold, expression_refused_of_closing hd]
    exact Tally.bareCall target outer d
  · have hless := sound_expression.consumes c e c' he
    rw [separatedList_of_ok (onward_literal ",") advances_expression.onward he hless]
    refine Tally.call target outer (List.cons_ne_nil e es) ?_
    have hfirst := h c (Nat.le_refl _) e c' he
    exact hfirst.append (tally_many (fun c'' hc'' => h c'' (by omega)) hes' hd)

/-- **An expression that is read tells as much as its nodes say.** -/
theorem tally_expression (c : Cursor) : Tallied c := by
  induction hn : c.ahead.length using Nat.strongRecOn generalizing c with
  | ind n ih =>
    subst hn
    intro e d h
    have hcase := evaluation_expression c
    generalize expression c = r at hcase h
    cases hcase with
    | boolean =>
      cases h
      exact .boolean _
    | number =>
      cases h
      exact .number _ c
    | @call name rest hname hdepth ho es n hes hc =>
      cases h
      refine tally_call _ c (fun c' hc' => ih _ ?_ c' rfl) hes hc
      exact Nat.lt_of_le_of_lt hc' (length_ahead_argumentsAt hname 0)
    | fraction | outOfRange | tooDeep | noOpening | fatalArgument | noClosing | nothing => cases h

end Grammar

/-! ## Journals -/

open Descent.Grammar Descent.Cursor

variable {options : Options} {text : String} {e : Expression}

/-- What a parse that succeeds writes down: the trace of the expression, what is left behind it if
anything is, and the expression. -/
theorem journal_eq_of_ok (h : (parseWith options text).result = .ok e) :
    ∃ c, (expression (atStart text options.maxDepth)).result = .ok (e, c) ∧
      (parseWith options text).journal =
        (expression (atStart text options.maxDepth)).trace.map .event ++
          (if c.remaining.utf8ByteSize = 0 then [] else [.ignored c.remaining.utf8ByteSize]) ++
          [.parsed text e] := by
  cases hr : (expression (atStart text options.maxDepth)).result with
  | error f =>
    simp only [parseWith, hr] at h
    cases h
  | ok found =>
    obtain ⟨e', c⟩ := found
    have hsize : c.remaining.utf8ByteSize = Text.byteLength c.ahead := Text.utf8ByteSize_ofList _
    simp only [parseWith, hr, Parse.settle] at h ⊢
    by_cases hend : c.ahead = []
    · have hatEnd : c.atEnd = true := List.isEmpty_iff.2 hend
      simp only [hatEnd, if_true] at h ⊢
      cases h
      refine ⟨c, rfl, ?_⟩
      rw [hsize, hend, Text.byteLength_nil, if_pos rfl]
    · have hatEnd : c.atEnd = false := by simp [atEnd, hend]
      have hpos : Text.byteLength c.ahead ≠ 0 := by
        have hle := Text.length_le_byteLength c.ahead
        have hlen := List.length_pos_iff.2 hend
        omega
      cases hm : options.mode with
      | strict => simp [hatEnd, hm] at h
      | lenient =>
        simp only [hatEnd, hm, Bool.false_eq_true, if_false] at h ⊢
        cases h
        refine ⟨c, rfl, ?_⟩
        rw [hsize, if_neg hpos]

/-- **The journal of a parse that succeeds holds exhausted choices of two and of three, each of which
expected `true` where it was tried, then a note of the bytes behind the expression if there are any,
and then the expression. The expression says how many choices of either kind there are.** -/
theorem journal_of_ok (h : (parseWith options text).result = .ok e) :
    ∃ (c : Cursor) (told : Trace),
      (expression (atStart text options.maxDepth)).result = .ok (e, c) ∧
      c.position + c.remaining.utf8ByteSize = text.utf8ByteSize ∧
      (parseWith options text).journal = told.map .event ++
        (if c.remaining.utf8ByteSize = 0 then [] else [.ignored c.remaining.utf8ByteSize]) ++
        [.parsed text e] ∧
      (∀ ev ∈ told, ∃ n p, (n = 2 ∨ n = 3) ∧
        ev = .choiceExhausted n p { expected := "true", position := p }) ∧
      (exhaustedAt 3 told).length = e.nodes.countP isBareCall ∧
      (exhaustedAt 2 told).length =
        e.nodes.countP isNumber + e.nodes.countP isCall + e.nodes.countP isBareCall := by
  obtain ⟨c, hc, hjournal⟩ := journal_eq_of_ok h
  have htally := tally_expression _ e c hc
  have hstays := wellBehaved_expression (atStart text options.maxDepth) (Nat.zero_le _)
  have htext : c.text = text := ((hstays.ok e c hc).text_eq).trans (text_atStart text _)
  have hsize := size_text c
  rw [htext, ← Text.utf8ByteSize_ofList] at hsize
  have htwos := htally.twos
  have hthrees := htally.threes
  rw [nodesOfAll_singleton] at htwos hthrees
  exact ⟨c, _, hc, hsize.symm, hjournal, htally.misses, hthrees, htwos⟩

/-- A number, two calls, one of them without arguments, and one byte behind them. -/
theorem journal_of_ok_leftover :
    let e : Expression := .call "f" [.number 1, .call "g" []]
    (parseWith { maxDepth := 2 } "f(1,g())x").result = .ok e ∧
      ∃ told : Trace,
        (parseWith { maxDepth := 2 } "f(1,g())x").journal =
          told.map .event ++ [.ignored 1] ++ [.parsed "f(1,g())x" e] ∧
        (exhaustedAt 3 told).length = 1 ∧ (exhaustedAt 2 told).length = 4 := by
  intro e
  have hone : Derives 1 ['1'] (.number 1) :=
    @Derives.number 1 [] ['1'] ⟨by decide, by decide, by simp⟩ (by decide) (by decide)
  have hg : Derives 1 "g()".toList (.call "g" []) :=
    @Derives.call 0 ['g'] [] ⟨by decide, fun _ h => nomatch h⟩ (by decide) fun _ h => nomatch h
  have hf : Derives 2 "f(1,g())".toList e :=
    @Derives.call 1 ['f'] [(['1'], .number 1), ("g()".toList, .call "g" [])]
      ⟨by decide, fun _ h => nomatch h⟩ (by decide)
      (List.forall_mem_cons.2 ⟨hone, List.forall_mem_singleton.2 hg⟩)
  have htext : "f(1,g())x".toList = "f(1,g())".toList ++ ['x'] := rfl
  obtain ⟨c, hc, -, hrest⟩ :=
    expression_of_derives htext hf (endsBefore_cons e [] (by decide) (by decide))
  have hok : (parseWith { maxDepth := 2 } "f(1,g())x").result = .ok e := parseWith_lenient_of_ok hc
  obtain ⟨c', told, hc', -, hjournal, -, hthrees, htwos⟩ := journal_of_ok hok
  obtain rfl : c' = c := by
    have heq := hc'.symm.trans hc
    cases heq
    rfl
  have hsize : c'.remaining.utf8ByteSize = 1 := by
    rw [remaining, hrest]
    rfl
  rw [hsize] at hjournal
  exact ⟨hok, told, hjournal, hthrees, htwos⟩

end Descent
