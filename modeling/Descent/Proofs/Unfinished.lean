import Descent.Proofs.Recognition

/-!
# What stands before a failure

An attempt at an expression that fails has read words of the grammar up to the place where it failed,
and nothing else. After an ordinary failure these are a word, or the name of a call and its complete
arguments. After a fatal one they are the beginnings of as many calls as the limit allows, each still
open, and then the name of one more (`limit_of_fatal`).

* `Unfinished d text` : `text` begins `d` calls, each inside the one before;
* `surplus text` : how many more opening brackets than closing ones are in `text`;
* `isTokenChar` : the characters that words, brackets and commas are made of;
* `ReadUpTo` : only such characters stand in front of a place. It holds of the place of any failure
  (`readUpTo_of_error`).
-/

namespace Descent.Grammar

open Descent.Parser Descent.Cursor

/-! ## Beginnings of calls -/

/-- `text` begins `d` calls, each inside the one before: of every call it has the name, the opening
bracket and complete arguments with a comma behind each. -/
inductive Unfinished : (d : Nat) → (text : List Char) → Prop where
  | nil : Unfinished 0 []
  | call {d : Nat} {name inner : List Char} {written : List (List Char × Expression)}
    (hn : IsName name) (hk : ∀ b, ¬ keyword b <+: name) (ha : ∀ a ∈ written, Derives d a.1 a.2)
    (h : Unfinished d inner) :
    Unfinished (d + 1) (name ++ ['('] ++ (written.map Prod.fst).flatMap (· ++ [',']) ++ inner)

/-- An expression is looked for at the start, behind an opening bracket or behind a comma. -/
theorem Unfinished.getLast?_eq {d : Nat} {text : List Char} (h : Unfinished d text) :
    text = [] ∨ text.getLast? = some '(' ∨ text.getLast? = some ',' := by
  induction h with
  | nil => exact .inl rfl
  | @call d name inner written hn hk ha h ih =>
    right
    rcases ih with rfl | hlast | hlast
    · rcases List.eq_nil_or_concat written with rfl | ⟨others, a, rfl⟩
      · simp
      · rw [List.concat_eq_append, List.append_nil, List.map_append, List.flatMap_append,
          List.getLast?_append, List.getLast?_append]
        simp
    · exact .inl (by rw [List.getLast?_append, hlast]; rfl)
    · exact .inr (by rw [List.getLast?_append, hlast]; rfl)

/-! ## Characters -/

/-- A character of a word, a bracket or a comma. -/
def isTokenChar (c : Char) : Bool := c.isAlphanum || c ∈ ['_', '+', '-', '(', ')', ',']

theorem isTokenChar_of_isNameChar {c : Char} (h : isNameChar c = true) : isTokenChar c = true := by
  simp only [isNameChar, isTokenChar, Bool.or_eq_true, decide_eq_true_eq] at h ⊢
  rcases h with h | rfl
  · exact .inl h
  · exact .inr (by decide)

theorem isNameChar_of_isDigit {c : Char} (h : c.isDigit = true) : isNameChar c = true := by
  simp [isNameChar, Char.isAlphanum, h]

/-- All characters of the text are those of the grammar. -/
def Spelled (text : List Char) : Prop := ∀ c ∈ text, isTokenChar c = true

theorem spelled_nil : Spelled [] := fun _ h => nomatch h

theorem Spelled.append {text more : List Char} (h : Spelled text) (h' : Spelled more) :
    Spelled (text ++ more) :=
  List.forall_mem_append.2 ⟨h, h'⟩

theorem spelled_singleton {c : Char} (h : isTokenChar c = true) : Spelled [c] :=
  List.forall_mem_singleton.2 h

theorem spelled_flatMap {texts : List (List Char)} {f : List Char → List Char}
    (h : ∀ text ∈ texts, Spelled (f text)) : Spelled (texts.flatMap f) := by
  intro c hc
  obtain ⟨text, htext, hmem⟩ := List.mem_flatMap.1 hc
  exact h text htext c hmem

theorem spelled_intercalate {texts : List (List Char)} (h : ∀ text ∈ texts, Spelled text) :
    Spelled ([','].intercalate texts) := by
  cases texts with
  | nil => exact spelled_nil
  | cons first others =>
    obtain ⟨hfirst, hothers⟩ := List.forall_mem_cons.1 h
    rw [intercalate_cons]
    refine hfirst.append (spelled_flatMap fun text ht => ?_)
    exact (spelled_singleton (by decide)).append (hothers text ht)

theorem IsName.spelled {name : List Char} (h : IsName name) : Spelled name :=
  fun c hc => isTokenChar_of_isNameChar (h.isNameChar c hc)

theorem IsNumeral.spelled {sign digits : List Char} (h : IsNumeral sign digits) :
    Spelled (sign ++ digits) := by
  have hsign : ∀ s ∈ [[], ['+'], ['-']], s.all isTokenChar = true := by decide
  refine Spelled.append (fun c hc => ?_) fun c hc => ?_
  · exact List.all_eq_true.1 (hsign sign h.sign_mem) c hc
  · exact isTokenChar_of_isNameChar (isNameChar_of_isDigit (h.isDigit c hc))

theorem spelled_call {name inner : List Char} (hn : IsName name) (hi : Spelled inner) :
    Spelled (name ++ ['('] ++ inner) :=
  (hn.spelled.append (spelled_singleton (by decide))).append hi

theorem Derives.spelled {d : Nat} {text : List Char} {e : Expression} (h : Derives d text e) :
    Spelled text := by
  induction h with
  | boolean d b => exact fun c hc => isTokenChar_of_isNameChar (isNameChar_of_mem_keyword hc)
  | number d h => exact h.spelled
  | call hn hk ha ih =>
    refine (spelled_call hn (spelled_intercalate fun text ht => ?_)).append
      (spelled_singleton (by decide))
    obtain ⟨a, ha', rfl⟩ := List.mem_map.1 ht
    exact ih a ha'

theorem Unfinished.spelled {d : Nat} {text : List Char} (h : Unfinished d text) : Spelled text := by
  induction h with
  | nil => exact spelled_nil
  | call hn hk ha h ih =>
    refine (spelled_call hn (spelled_flatMap fun text ht => ?_)).append ih
    obtain ⟨a, ha', rfl⟩ := List.mem_map.1 ht
    exact (ha a ha').spelled.append (spelled_singleton (by decide))

/-! ## Brackets -/

/-- How many more opening brackets than closing ones there are. -/
def surplus (text : List Char) : Int := text.count '(' - text.count ')'

@[simp] theorem surplus_nil : surplus [] = 0 := rfl

@[simp] theorem surplus_append (text more : List Char) :
    surplus (text ++ more) = surplus text + surplus more := by
  simp only [surplus, List.count_append]
  omega

theorem surplus_flatMap {texts : List (List Char)} {f : List Char → List Char}
    (h : ∀ text ∈ texts, surplus (f text) = 0) : surplus (texts.flatMap f) = 0 := by
  induction texts with
  | nil => rfl
  | cons first others ih =>
    obtain ⟨hfirst, hothers⟩ := List.forall_mem_cons.1 h
    rw [List.flatMap_cons, surplus_append, hfirst, ih hothers]
    rfl

theorem surplus_intercalate {texts : List (List Char)} (h : ∀ text ∈ texts, surplus text = 0) :
    surplus ([','].intercalate texts) = 0 := by
  cases texts with
  | nil => rfl
  | cons first others =>
    obtain ⟨hfirst, hothers⟩ := List.forall_mem_cons.1 h
    rw [intercalate_cons, surplus_append, hfirst, surplus_flatMap fun text ht => ?_]
    · rfl
    · exact (surplus_append [','] text).trans (by rw [hothers text ht]; rfl)

/-- No bracket is part of a word. -/
theorem surplus_of_isNameChar {word : List Char} (h : ∀ c ∈ word, isNameChar c = true) :
    surplus word = 0 := by
  have hopening : word.count '(' = 0 :=
    List.count_eq_zero.2 fun hm => absurd (h _ hm) (by decide)
  have hclosing : word.count ')' = 0 :=
    List.count_eq_zero.2 fun hm => absurd (h _ hm) (by decide)
  rw [surplus, hopening, hclosing]
  rfl

theorem IsNumeral.surplus_eq {sign digits : List Char} (h : IsNumeral sign digits) :
    surplus (sign ++ digits) = 0 := by
  have hsign : ∀ s ∈ [[], ['+'], ['-']], surplus s = 0 := by decide
  rw [surplus_append, hsign sign h.sign_mem,
    surplus_of_isNameChar fun c hc => isNameChar_of_isDigit (h.isDigit c hc)]
  rfl

/-- All brackets of an expression are closed. -/
theorem Derives.surplus_eq {d : Nat} {text : List Char} {e : Expression} (h : Derives d text e) :
    surplus text = 0 := by
  induction h with
  | boolean d b => exact surplus_of_isNameChar fun c hc => isNameChar_of_mem_keyword hc
  | number d h => exact h.surplus_eq
  | @call d name written hn hk ha ih =>
    have hargs : surplus ([','].intercalate (written.map Prod.fst)) = 0 := by
      refine surplus_intercalate fun text ht => ?_
      obtain ⟨a, ha', rfl⟩ := List.mem_map.1 ht
      exact ih a ha'
    rw [surplus_append, surplus_append, surplus_append, surplus_of_isNameChar hn.isNameChar, hargs]
    rfl

/-- As many brackets are open as calls are begun. -/
theorem Unfinished.surplus_eq {d : Nat} {text : List Char} (h : Unfinished d text) :
    surplus text = d := by
  induction h with
  | nil => rfl
  | @call d name inner written hn hk ha h ih =>
    have hargs : surplus ((written.map Prod.fst).flatMap (· ++ [','])) = 0 := by
      refine surplus_flatMap fun text ht => ?_
      obtain ⟨a, ha', rfl⟩ := List.mem_map.1 ht
      rw [surplus_append, (ha a ha').surplus_eq]
      rfl
    have hopening : surplus ['('] = 1 := rfl
    rw [surplus_append, surplus_append, surplus_append, surplus_of_isNameChar hn.isNameChar, hargs,
      hopening, ih]
    push_cast
    omega

/-! ## Fatal failures -/

/-- Elements with a comma in front of every one but the first, and a comma behind the last. -/
theorem append_flatMap_comma (first : List Char) (others : List (List Char)) :
    first ++ others.flatMap (',' :: ·) ++ [','] = (first :: others).flatMap (· ++ [',']) := by
  induction others generalizing first with
  | nil => simp
  | cons second others ih =>
    calc first ++ (second :: others).flatMap (',' :: ·) ++ [',']
        = first ++ [','] ++ (second ++ others.flatMap (',' :: ·) ++ [',']) := by simp
      _ = (first :: second :: others).flatMap (· ++ [',']) := by rw [ih second]; simp

/-- A list of arguments fails as one of them does, behind the arguments before it. -/
theorem Sound.argument_of_error {p : Parser Expression} (hp : Sound p) {c : Cursor} {f : Failure}
    (h : (Parser.separatedList (literal ",") p c).result = .error f) :
    ∃ (written : List (List Char × Expression)) (d : Cursor),
      Between c ((written.map Prod.fst).flatMap (· ++ [','])) d ∧ (p d).result = .error f ∧
        ∀ a ∈ written, Derives (room c) a.1 a.2 := by
  have hfatal := fatal_of_separatedList_error h
  cases hr : (p c).result with
  | error g =>
    rw [separatedList_of_first_error hr] at h
    obtain ⟨rfl, -⟩ := endOfList_error h
    exact ⟨[], c, .refl c, hr, fun a ha => nomatch ha⟩
  | ok found =>
    obtain ⟨e, d⟩ := found
    rw [separatedList_of_ok (onward_literal ",") hp.advances.onward hr (hp.consumes c e d hr)] at h
    obtain ⟨word, hw, he, -⟩ := hp c e d hr
    obtain ⟨es, d', hes, hd'⟩ := rounds_of_many_error (Run.map_error.1 h)
    obtain ⟨written, ht, rfl, hall⟩ := hp.rounds hes
    rw [room_of_between hw] at hall
    rcases followedBy_comma_error.1 hd' with ⟨-, rfl⟩ | ⟨hcomma, harg⟩
    · cases hfatal
    · have hbehind := between_of_isPrefix (singleton_isPrefix.2 hcomma)
      refine ⟨(word, e) :: written, _, ?_, harg, List.forall_mem_cons.2 ⟨he, hall⟩⟩
      rw [List.map_cons, ← append_flatMap_comma]
      exact (hw.trans ht).trans hbehind

/-- The text begins `d` calls, each inside the one before, and goes on with the name of one more,
which ends at the offset `n`. -/
def BeginsBeyond (d : Nat) (text : List Char) (n : Nat) : Prop :=
  ∃ begun name rest, text = begun ++ (name ++ rest) ∧ Unfinished d begun ∧
    NameAhead (name ++ rest) name rest ∧ n = Text.byteLength (begun ++ name)

theorem BeginsBeyond.call {d n : Nat} {name inner : List Char}
    {written : List (List Char × Expression)} (hn : IsName name) (hk : ∀ b, ¬ keyword b <+: name)
    (ha : ∀ a ∈ written, Derives d a.1 a.2) (h : BeginsBeyond d inner n) {front : List Char}
    (hf : front = name ++ ['('] ++ (written.map Prod.fst).flatMap (· ++ [','])) :
    BeginsBeyond (d + 1) (front ++ inner) (Text.byteLength front + n) := by
  obtain ⟨begun, name', rest, rfl, hbegun, hname, rfl⟩ := h
  refine ⟨front ++ begun, name', rest, ?_, hf ▸ .call hn hk ha hbegun, hname, ?_⟩
  · rw [List.append_assoc front]
  · rw [List.append_assoc front, Text.byteLength_append front]

theorem position_argumentsAt {c : Cursor} {name rest : List Char}
    (h : c.ahead = name ++ '(' :: rest) :
    (argumentsAt c name).position = c.position + Text.byteLength (name ++ ['(']) := by
  have hahead : c.ahead = (name ++ ['(']) ++ rest := by
    rw [h]
    simp
  have hfront := (between_of_eq_append hahead).position_eq
  rw [List.length_append, List.length_singleton] at hfront
  exact hfront

/-- **A fatal failure is that of the depth limit. It is located behind the name of a call for which
the calls begun before it leave no room.** -/
theorem limit_of_fatal {c : Cursor} {f : Failure} (h : (expression c).result = .error f)
    (hf : f.fatal = true) :
    f.expected = "nesting depth of at most " ++ toString c.maxDepth ∧
      ∃ n, BeginsBeyond (room c) c.ahead n ∧ f.position = c.position + n := by
  induction hlen : c.ahead.length using Nat.strongRecOn generalizing c with
  | ind n ih =>
    subst hlen
    have hcase := evaluation_expression c
    generalize expression c = r at hcase h
    cases hcase with
    | @tooDeep name rest hn hd =>
      cases h
      have hroom : room c = 0 := Nat.sub_eq_zero_of_le hd
      refine ⟨rfl, _, ⟨[], name, rest, hn.eq_append, hroom ▸ .nil, hn.eq_append ▸ hn, rfl⟩, ?_⟩
      exact (between_of_eq_append hn.eq_append).position_eq
    | @fatalArgument name rest hn hd ho g harg =>
      cases h
      obtain ⟨behind, rfl⟩ := List.head?_eq_some_iff.1 ho
      -- the call is begun, and the argument begins as many more as there is room for inside it
      obtain ⟨written, d, hw, he, hall⟩ := sound_expression.argument_of_error harg
      have hshort : d.ahead.length < c.ahead.length := by
        rw [hw.eq_forward]
        exact length_ahead_argumentsAt hn _
      obtain ⟨hlimit, n, hbegins, hposition⟩ := ih _ hshort he rfl
      rw [room_of_between hw] at hbegins
      have hcall := hbegins.call hn.isName hn.name_not_keyword hall rfl
      rw [room_argumentsAt name hd, List.append_assoc _ _ d.ahead, ← hw.ahead_eq,
        ahead_argumentsAt hn.eq_append, List.append_assoc, List.singleton_append, ← hn.eq_append]
        at hcall
      refine ⟨?_, _, hcall, ?_⟩
      · rw [hlimit, hw.eq_forward]
        rfl
      · rw [hposition, hw.position_eq, position_argumentsAt hn.eq_append,
          Text.byteLength_append (name ++ ['('])]
        omega
    | boolean | number | call => cases h
    | fraction | outOfRange | noOpening | noClosing | nothing =>
      cases h
      cases hf

/-! ## What was read -/

/-- Behind `word`, which stands ahead of `c` and consists of words, brackets and commas. -/
def ReadUpTo (c : Cursor) (position : Nat) : Prop :=
  ∃ word rest, c.ahead = word ++ rest ∧ Spelled word ∧
    position = c.position + Text.byteLength word

theorem readUpTo_of_between {c d : Cursor} {word : List Char} (h : Between c word d)
    (hs : Spelled word) : ReadUpTo c d.position :=
  ⟨word, d.ahead, h.ahead_eq, hs, h.position_eq⟩

theorem readUpTo_of_append {c : Cursor} {word rest : List Char} (h : c.ahead = word ++ rest)
    (hs : Spelled word) : ReadUpTo c (c.forward word.length).position :=
  readUpTo_of_between (between_of_eq_append h) hs

theorem readUpTo_of_arguments {c d : Cursor} {name behind inner : List Char}
    (h : c.ahead = name ++ '(' :: behind) (hn : IsName name)
    (hi : Between (argumentsAt c name) inner d) (hs : Spelled inner) : ReadUpTo c d.position := by
  refine ⟨name ++ ['('] ++ inner, d.ahead, ?_, spelled_call hn hs, ?_⟩
  · rw [h, ← ahead_argumentsAt h, hi.ahead_eq]
    simp
  · rw [hi.position_eq, position_argumentsAt h, Text.byteLength_append (name ++ ['('])]
    omega

theorem readUpTo_of_fatal {c : Cursor} {f : Failure} (h : (expression c).result = .error f)
    (hf : f.fatal = true) : ReadUpTo c f.position := by
  obtain ⟨-, n, ⟨begun, name, rest, hahead, hbegun, hname, rfl⟩, hposition⟩ := limit_of_fatal h hf
  refine ⟨begun ++ name, rest, ?_, hbegun.spelled.append hname.isName.spelled, hposition⟩
  rw [hahead, List.append_assoc]

/-- An attempt that fails has read words, brackets and commas up to where it failed. -/
theorem readUpTo_of_error {c : Cursor} {f : Failure} (h : (expression c).result = .error f) :
    ReadUpTo c f.position := by
  by_cases hf : f.fatal = true
  · exact readUpTo_of_fatal h hf
  · have hcase := evaluation_expression c
    generalize expression c = r at hcase h
    cases hcase with
    | boolean | number | call => cases h
    | tooDeep =>
      cases h
      exact absurd rfl hf
    | fatalArgument _ _ _ harg =>
      cases h
      exact absurd (fatal_of_separatedList_error harg) hf
    | nothing =>
      cases h
      exact ⟨[], c.ahead, rfl, spelled_nil, rfl⟩
    | fraction hn | outOfRange hn =>
      cases h
      exact readUpTo_of_append hn.eq_append hn.isNumeral.spelled
    | noOpening hn =>
      cases h
      exact readUpTo_of_append hn.eq_append hn.isName.spelled
    | @noClosing name rest hn hd ho es n hes hc =>
      cases h
      obtain ⟨behind, rfl⟩ := List.head?_eq_some_iff.1 ho
      obtain ⟨written, hw, -, hall⟩ := sound_expression.separatedList hes
      have hinner : Spelled ([','].intercalate (written.map Prod.fst)) := by
        refine spelled_intercalate fun text ht => ?_
        obtain ⟨a, ha, rfl⟩ := List.mem_map.1 ht
        exact (hall a ha).spelled
      exact readUpTo_of_arguments hn.eq_append hn.isName hw hinner

end Descent.Grammar
