import Descent.Proofs.Production

/-!
# How an expression is read

The choice between a truth value, a number and a call is decided by what the text ahead starts with,
and each decision has one outcome. `Evaluation p c` lists them all: how `expressionOf p` runs at `c`,
told by the text ahead and by the run of the argument list alone. Since nothing else can happen
(`evaluation`), whatever holds of expressions can be proved by going through its cases.
-/

namespace Descent.Grammar

open Descent.Parser

/-! ## Expressions -/

/-- What is told when no expression was recognised at `c`, after what the attempts have told. -/
def refused (c : Cursor) (told : Trace) (f : Failure) : Run Expression :=
  { result := .error f, trace := noKeyword c :: (told ++ [.choiceExhausted 3 c.position f]) }

section
variable {p : Parser Expression} {c : Cursor}

theorem expressionOf_of_keyword {b : Bool} (h : keyword b <+: c.ahead) :
    expressionOf p c = .succeed (.boolean b) (c.forward (keyword b).length) := by
  have hb : boolean.map Expression.boolean c =
      .succeed (.boolean b) (c.forward (keyword b).length) := by
    rw [Parser.map, boolean_of_isPrefix h]
    rfl
  rw [expressionOf, choice, tryEach_of_ok (by rw [hb]; rfl), hb]

variable (hk : ∀ b, ¬ keyword b <+: c.ahead)
include hk

theorem boolean_map_of_not_isPrefix :
    boolean.map Expression.boolean c =
      { result := .error { expected := "true", position := c.position }, trace := [noKeyword c] } := by
  rw [Parser.map, boolean_of_not_isPrefix hk]
  rfl

theorem expressionOf_of_number {v : Int} {c' : Cursor} (hv : number c = .succeed v c') :
    expressionOf p c = { result := .ok (.number v, c'), trace := [noKeyword c] } := by
  have hn : number.map Expression.number c = .succeed (.number v) c' := by
    rw [Parser.map, hv]
    rfl
  rw [expressionOf, choice, tryEach_of_error (by rw [boolean_map_of_not_isPrefix hk]) rfl,
    tryEach_of_ok (by rw [hn]; rfl), hn, boolean_map_of_not_isPrefix hk]
  rfl

/-- Without a truth value or a number, all depends on the call. -/
theorem expressionOf_of_not_number {f : Failure} (hf : number c = .fail f)
    (hfatal : f.fatal = false) :
    expressionOf p c =
      (tryEach 3 [(callOf p).map .ofCall]
        (some (furthest (some { expected := "true", position := c.position }) f)) c).after
          [noKeyword c] := by
  have hn : number.map Expression.number c = .fail f := by
    rw [Parser.map, hf]
    rfl
  rw [expressionOf, choice, tryEach_of_error (by rw [boolean_map_of_not_isPrefix hk]) rfl,
    tryEach_of_error (by rw [hn]; rfl) hfatal, hn, boolean_map_of_not_isPrefix hk]
  rfl

theorem expressionOf_of_call {f : Failure} (hf : number c = .fail f) (hfatal : f.fatal = false)
    {parts : String × List Expression} {d : Cursor} {told : Trace}
    (hc : callOf p c = { result := .ok (parts, d), trace := told }) :
    expressionOf p c = { result := .ok (.ofCall parts, d), trace := noKeyword c :: told } := by
  have hm : (callOf p).map Expression.ofCall c =
      { result := .ok (.ofCall parts, d), trace := told } := by
    rw [Parser.map, hc]
    rfl
  rw [expressionOf_of_not_number hk hf hfatal, tryEach_of_ok (by rw [hm]), hm]
  rfl

theorem expressionOf_of_call_fatal {f : Failure} (hf : number c = .fail f) (hfatal : f.fatal = false)
    {g : Failure} {told : Trace} (hc : callOf p c = { result := .error g, trace := told })
    (hg : g.fatal = true) :
    expressionOf p c = { result := .error g, trace := noKeyword c :: told } := by
  have hm : (callOf p).map Expression.ofCall c = { result := .error g, trace := told } := by
    rw [Parser.map, hc]
    rfl
  rw [expressionOf_of_not_number hk hf hfatal, tryEach_of_fatal (by rw [hm]) hg, hm]
  rfl

/-- When the call fails as well, the failure that got furthest is reported. -/
theorem expressionOf_of_call_error {f : Failure} (hf : number c = .fail f) (hfatal : f.fatal = false)
    {g : Failure} {told : Trace} (hc : callOf p c = { result := .error g, trace := told })
    (hg : g.fatal = false) :
    expressionOf p c = refused c told
      (furthest (some (furthest (some { expected := "true", position := c.position }) f)) g) := by
  have hm : (callOf p).map Expression.ofCall c = { result := .error g, trace := told } := by
    rw [Parser.map, hc]
    rfl
  rw [expressionOf_of_not_number hk hf hfatal, tryEach_of_error (by rw [hm]) hg, hm]
  rfl

end

/-! ## Every case -/

/-- The runs of `expressionOf p` at `c`. -/
inductive Evaluation (p : Parser Expression) (c : Cursor) : Run Expression → Prop where
  | boolean {b : Bool} (h : keyword b <+: c.ahead) :
    Evaluation p c (.succeed (.boolean b) (c.forward (keyword b).length))
  | number {sign digits rest : List Char} (h : NumeralAhead c.ahead sign digits rest)
    (hp : rest.head? ≠ some '.') (hl : least ≤ numeralValue sign digits)
    (hg : numeralValue sign digits ≤ greatest) :
    Evaluation p c
      { result := .ok (.number (numeralValue sign digits), c.forward (sign ++ digits).length)
        trace := [noKeyword c] }
  | fraction {sign digits rest : List Char} (h : NumeralAhead c.ahead sign digits rest)
    (hp : rest.head? = some '.') :
    Evaluation p c (refused c []
      { expected := "integer without fractional part"
        position := (c.forward (sign ++ digits).length).position })
  | outOfRange {sign digits rest : List Char} (h : NumeralAhead c.ahead sign digits rest)
    (hp : rest.head? ≠ some '.')
    (hv : numeralValue sign digits < least ∨ greatest < numeralValue sign digits) (tail : String) :
    Evaluation p c (refused c []
      { expected := "integer in i64 range" ++ tail
        position := (c.forward (sign ++ digits).length).position })
  | tooDeep {name rest : List Char} (h : NameAhead c.ahead name rest) (hd : c.maxDepth ≤ c.depth) :
    Evaluation p c
      { result := .error
          { expected := "nesting depth of at most " ++ toString c.maxDepth
            position := (c.forward name.length).position
            fatal := true }
        trace := [noKeyword c] }
  | noOpening {name rest : List Char} (h : NameAhead c.ahead name rest) (hd : c.depth < c.maxDepth)
    (ho : rest.head? ≠ some '(') :
    Evaluation p c (refused c []
      { expected := "Bracket: (", position := (c.forward name.length).position })
  | fatalArgument {name rest : List Char} (h : NameAhead c.ahead name rest)
    (hd : c.depth < c.maxDepth) (ho : rest.head? = some '(') {f : Failure}
    (hf : (arguments p c name).result = .error f) :
    Evaluation p c { result := .error f, trace := noKeyword c :: (arguments p c name).trace }
  | noClosing {name rest : List Char} (h : NameAhead c.ahead name rest) (hd : c.depth < c.maxDepth)
    (ho : rest.head? = some '(') {es : List Expression} {n : Nat}
    (hes : (arguments p c name).result = .ok (es, (argumentsAt c name).forward n))
    (hc : ((argumentsAt c name).forward n).ahead.head? ≠ some ')') :
    Evaluation p c (refused c (arguments p c name).trace
      { expected := "Bracket: )", position := ((argumentsAt c name).forward n).position })
  | call {name rest : List Char} (h : NameAhead c.ahead name rest) (hd : c.depth < c.maxDepth)
    (ho : rest.head? = some '(') {es : List Expression} {n : Nat}
    (hes : (arguments p c name).result = .ok (es, (argumentsAt c name).forward n))
    (hc : ((argumentsAt c name).forward n).ahead.head? = some ')') :
    Evaluation p c
      { result := .ok (.call (String.ofList name) es, c.forward (name.length + 1 + (n + 1)))
        trace := noKeyword c :: (arguments p c name).trace }
  | nothing (hn : numeral c.ahead = none) (hs : Stops isNameStart c.ahead) :
    Evaluation p c (refused c [] { expected := "true", position := c.position })

/-- Back up behind the closing bracket of a call. -/
theorem ascend_argumentsAt (c : Cursor) (name : List Char) (n : Nat) :
    (((argumentsAt c name).forward n).forward 1).ascend =
      c.forward (name.length + 1 + (n + 1)) := by
  rw [Cursor.forward_forward, ← Cursor.forward_forward c]
  exact Cursor.ascend_forward_descend (c.forward (name.length + 1)) (n + 1)

/-- The opening bracket of a call is behind its name. -/
theorem position_lt_argumentsAt {c : Cursor} {name rest : List Char}
    (h : NameAhead c.ahead name rest) (n : Nat) :
    c.position < ((argumentsAt c name).forward n).position := by
  have h1 : c.position < (c.forward name.length).position :=
    Cursor.position_lt_forward h.eq_append h.isName.length_pos
  have h2 := Cursor.position_le_forward (c.forward name.length) 1
  rw [Cursor.forward_forward] at h2
  have h3 := Cursor.position_le_forward (argumentsAt c name) n
  change (c.forward (name.length + 1)).position ≤ _ at h3
  omega

/-- The arguments of a call have less text ahead than the call. -/
theorem length_ahead_argumentsAt {c : Cursor} {name rest : List Char}
    (h : NameAhead c.ahead name rest) (n : Nat) :
    ((argumentsAt c name).forward n).ahead.length < c.ahead.length := by
  have hpos := h.isName.length_pos
  have hlen : name.length ≤ c.ahead.length := by simp [h.eq_append]
  rw [Cursor.ahead_forward]
  show ((c.ahead.drop (name.length + 1)).drop n).length < _
  simp only [List.length_drop]
  omega

/-- Without a name, the call fails where it starts. -/
theorem callOf_of_stops {p : Parser Expression} {c : Cursor} (hs : Stops isNameStart c.ahead) :
    callOf p c = .fail { expected := "identifier", position := c.position } := by
  rw [callOf, both, identifier_of_stops hs, Run.andThen_of_error rfl]
  rfl

theorem expressionOf_of_nothing {p : Parser Expression} {c : Cursor} (hn : numeral c.ahead = none)
    (hs : Stops isNameStart c.ahead) :
    expressionOf p c = refused c [] { expected := "true", position := c.position } := by
  rw [expressionOf_of_call_error (not_keyword_of_stops hs) (number_of_none hn) rfl
    (callOf_of_stops hs) rfl]
  simp [furthest]

/-- A numeral that is refused got further than any other attempt. -/
theorem expressionOf_of_numeral_refused {p : Parser Expression} {c : Cursor}
    {sign digits rest : List Char} (h : NumeralAhead c.ahead sign digits rest) {expected : String}
    (hf : number c = .fail
      { expected := expected, position := (c.forward (sign ++ digits).length).position }) :
    expressionOf p c = refused c []
      { expected := expected, position := (c.forward (sign ++ digits).length).position } := by
  have hpos : c.position < (c.forward (sign ++ digits).length).position :=
    Cursor.position_lt_forward h.eq_append h.isNumeral.length_pos
  have hs := h.stops_isNameStart
  rw [expressionOf_of_call_error (not_keyword_of_stops hs) hf rfl (callOf_of_stops hs) rfl]
  have hnot : ¬ (c.forward (sign ++ digits).length).position < c.position := by omega
  simp only [furthest, if_pos hpos, if_neg hnot]

/-- A call that fails behind its name got further than any other attempt. -/
theorem expressionOf_of_name_refused {p : Parser Expression} {c : Cursor} {name rest : List Char}
    (h : NameAhead c.ahead name rest) {g : Failure} {told : Trace}
    (hc : callOf p c = { result := .error g, trace := told }) (hg : g.fatal = false)
    (hpos : c.position < g.position) : expressionOf p c = refused c told g := by
  rw [expressionOf_of_call_error h.not_keyword (number_of_none h.numeral_eq_none) rfl hc hg]
  simp [furthest, hpos]

theorem expressionOf_of_closing {p : Parser Expression} {c : Cursor} {name rest : List Char}
    (h : NameAhead c.ahead name rest) (hd : c.depth < c.maxDepth) (ho : rest.head? = some '(')
    {es : List Expression} {n : Nat}
    (hes : (arguments p c name).result = .ok (es, (argumentsAt c name).forward n))
    (hc : ((argumentsAt c name).forward n).ahead.head? = some ')') :
    expressionOf p c =
      { result := .ok (.call (String.ofList name) es, c.forward (name.length + 1 + (n + 1)))
        trace := noKeyword c :: (arguments p c name).trace } := by
  rw [expressionOf_of_call h.not_keyword (number_of_none h.numeral_eq_none) rfl
    (callOf_closing h hd ho hes hc), ascend_argumentsAt]
  rfl

theorem evaluation_of_numeral {p : Parser Expression} {c : Cursor} {sign digits rest : List Char}
    (h : NumeralAhead c.ahead sign digits rest) : Evaluation p c (expressionOf p c) := by
  by_cases hp : rest.head? = some '.'
  · rw [expressionOf_of_numeral_refused h (number_of_point h hp)]
    exact .fraction h hp
  by_cases hv : numeralValue sign digits < least ∨ greatest < numeralValue sign digits
  · obtain ⟨tail, ht⟩ := number_of_out_of_range h hp hv
    rw [expressionOf_of_numeral_refused h ht]
    exact .outOfRange h hp hv tail
  · have hl : least ≤ numeralValue sign digits := by omega
    have hg : numeralValue sign digits ≤ greatest := by omega
    rw [expressionOf_of_number (not_keyword_of_stops h.stops_isNameStart)
      (number_of_in_range h hp hl hg)]
    exact .number h hp hl hg

theorem evaluation_of_name {p : Parser Expression} (hp : Advances p) {c : Cursor}
    {name rest : List Char} (h : NameAhead c.ahead name rest) :
    Evaluation p c (expressionOf p c) := by
  by_cases hd : c.depth < c.maxDepth
  · by_cases ho : rest.head? = some '('
    · cases hr : (arguments p c name).result with
      | error f =>
        rw [expressionOf_of_call_fatal h.not_keyword (number_of_none h.numeral_eq_none) rfl
          (callOf_fatal h hd ho hr) (fatal_of_separatedList_error hr)]
        exact .fatalArgument h hd ho hr
      | ok found =>
        obtain ⟨es, d⟩ := found
        obtain ⟨n, rfl⟩ := advances_separatedList (advances_literal ",") hp _ es d hr
        by_cases hc : ((argumentsAt c name).forward n).ahead.head? = some ')'
        · rw [expressionOf_of_closing h hd ho hr hc]
          exact .call h hd ho hr hc
        · rw [expressionOf_of_name_refused h (callOf_noClosing h hd ho hr hc) rfl
            (position_lt_argumentsAt h n)]
          exact .noClosing h hd ho hr hc
    · rw [expressionOf_of_name_refused h (callOf_noOpening h hd ho) rfl
        (Cursor.position_lt_forward h.eq_append h.isName.length_pos)]
      exact .noOpening h hd ho
  · rw [expressionOf_of_call_fatal h.not_keyword (number_of_none h.numeral_eq_none) rfl
      (callOf_tooDeep h (Nat.not_lt.1 hd)) rfl]
    exact .tooDeep h (Nat.not_lt.1 hd)

/-- **Every run of the grammar's choice is one of the runs listed.** -/
theorem evaluation {p : Parser Expression} (hp : Advances p) (c : Cursor) :
    Evaluation p c (expressionOf p c) := by
  cases start c.ahead with
  | keyword b h =>
    rw [expressionOf_of_keyword h]
    exact .boolean h
  | numeral h => exact evaluation_of_numeral h
  | name h => exact evaluation_of_name hp h
  | nothing hn hs =>
    rw [expressionOf_of_nothing hn hs]
    exact .nothing hn hs

theorem evaluation_expression (c : Cursor) : Evaluation expression c (expression c) := by
  rw [expression_eq]
  exact evaluation advances_expression c

end Descent.Grammar
