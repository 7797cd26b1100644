import Descent.Proofs.Nesting

/-!
# Brackets in front of a reported limit

A call is one level deep from its opening bracket to its closing one, so wherever the parser is, the
depth is the number of brackets that are open. Written forms of expressions close every bracket that
they open, and have no more of them open at once than there are levels (`Derives.keeps`). In front of a
reported limit stand the beginnings of as many calls as there may be, with complete arguments in
between, and in these every bracket is closed again (`Unfinished.keeps`). Then comes the name that is
one too many (`limit_at`).

* `Keeps n text` : at no place of the text fewer brackets are open than at its start, and nowhere more
  than `n` of its own.
-/

namespace Descent

open Descent.Grammar Descent.Parser Descent.Cursor

/-! ## Open brackets along a text -/

/-- No front part of the text closes more brackets than it opens, nor leaves more than `n` open. -/
def Keeps (n : Nat) (text : List Char) : Prop :=
  ∀ front, front <+: text → 0 ≤ surplus front ∧ surplus front ≤ n

section
variable {n k : Nat} {text more : List Char}

theorem keeps_nil (n : Nat) : Keeps n [] := by
  intro front h
  rw [List.prefix_nil.1 h, surplus_nil]
  omega

/-- Of a longer text only the whole is a further front part. -/
theorem Keeps.concat (h : Keeps n text) {c : Char} (hlow : 0 ≤ surplus (text ++ [c]))
    (hhigh : surplus (text ++ [c]) ≤ n) : Keeps n (text ++ [c]) := by
  intro front hfront
  rcases List.prefix_concat_iff.1 hfront with rfl | hin
  · exact ⟨hlow, hhigh⟩
  · exact h front hin

/-- The brackets that the text leaves open take up room behind it. -/
theorem Keeps.append (h : Keeps n text) (h' : Keeps k more) (hroom : surplus text + k ≤ n) :
    Keeps n (text ++ more) := by
  intro front hfront
  rcases List.prefix_or_prefix_of_prefix hfront (List.prefix_append text more) with hin | ⟨tail, rfl⟩
  · exact h front hin
  · have htext := h text List.prefix_rfl
    have htail := h' tail ((List.prefix_append_right_inj text).1 hfront)
    rw [surplus_append]
    omega

theorem keeps_of_not_mem (n : Nat) (ho : '(' ∉ text) (hc : ')' ∉ text) : Keeps n text := by
  intro front hfront
  have hopening : front.count '(' = 0 := List.count_eq_zero.2 fun h => ho (hfront.subset h)
  have hclosing : front.count ')' = 0 := List.count_eq_zero.2 fun h => hc (hfront.subset h)
  rw [surplus, hopening, hclosing]
  omega

/-- Parts that close their own brackets leave each other room. -/
theorem keeps_flatMap {texts : List (List Char)} {f : List Char → List Char}
    (h : ∀ text ∈ texts, surplus (f text) = 0 ∧ Keeps n (f text)) : Keeps n (texts.flatMap f) := by
  induction texts with
  | nil => exact keeps_nil n
  | cons first others ih =>
    obtain ⟨⟨hsurplus, hfirst⟩, hothers⟩ := List.forall_mem_cons.1 h
    exact hfirst.append (ih hothers) (by omega)

theorem keeps_intercalate {texts : List (List Char)}
    (h : ∀ text ∈ texts, surplus text = 0 ∧ Keeps n text) : Keeps n ([','].intercalate texts) := by
  cases texts with
  | nil => exact keeps_nil n
  | cons first others =>
    obtain ⟨⟨hsurplus, hfirst⟩, hothers⟩ := List.forall_mem_cons.1 h
    have hcomma : surplus [','] = 0 ∧ Keeps n [','] :=
      ⟨rfl, keeps_of_not_mem n (by decide) (by decide)⟩
    have hrest : Keeps n (others.flatMap (',' :: ·)) := by
      refine keeps_flatMap fun text ht => ?_
      obtain ⟨htext, hkeeps⟩ := hothers text ht
      refine ⟨(surplus_append [','] text).trans ?_, hcomma.2.append hkeeps (by omega)⟩
      omega
    rw [intercalate_cons]
    exact hfirst.append hrest (by omega)

end

/-! ## Words and calls -/

namespace Grammar

theorem keeps_of_isNameChar (n : Nat) {word : List Char} (h : ∀ c ∈ word, isNameChar c = true) :
    Keeps n word :=
  keeps_of_not_mem n (fun hm => absurd (h _ hm) (by decide)) fun hm => absurd (h _ hm) (by decide)

theorem IsNumeral.keeps (n : Nat) {sign digits : List Char} (h : IsNumeral sign digits) :
    Keeps n (sign ++ digits) := by
  have hdigits := keeps_of_isNameChar n fun c hc => isNameChar_of_isDigit (h.isDigit c hc)
  have hsigns : ∀ s ∈ [[], ['+'], ['-']], '(' ∉ s ∧ ')' ∉ s ∧ surplus s = 0 := by decide
  obtain ⟨hopening, hclosing, hsurplus⟩ := hsigns sign h.sign_mem
  exact (keeps_of_not_mem n hopening hclosing).append hdigits (by omega)

section
variable {n : Nat} {name inner : List Char} (h : IsName name)
include h

theorem IsName.surplus_opening : surplus (name ++ ['(']) = 1 := by
  rw [surplus_append, surplus_of_isNameChar h.isNameChar]
  rfl

/-- What is kept inside the brackets of a call leaves one level less than what is kept by the call. -/
theorem IsName.keeps_opening (hi : Keeps n inner) : Keeps (n + 1) (name ++ ['('] ++ inner) := by
  have hopening := h.surplus_opening
  have hfront : Keeps (n + 1) (name ++ ['(']) :=
    (keeps_of_isNameChar _ h.isNameChar).concat (by omega) (by omega)
  exact hfront.append hi (by omega)

end

theorem Derives.keeps {d : Nat} {text : List Char} {e : Expression} (h : Derives d text e) :
    Keeps d text := by
  induction h with
  | boolean d b => exact keeps_of_isNameChar d fun c hc => isNameChar_of_mem_keyword hc
  | number d h => exact h.keeps d
  | @call d name written hn hk ha ih =>
    have hargs : ∀ text ∈ written.map Prod.fst, surplus text = 0 ∧ Keeps d text := by
      intro text ht
      obtain ⟨a, ha', rfl⟩ := List.mem_map.1 ht
      exact ⟨(ha a ha').surplus_eq, ih a ha'⟩
    have hcall : surplus (name ++ ['('] ++ [','].intercalate (written.map Prod.fst) ++ [')']) = 0 :=
      (Derives.call hn hk ha).surplus_eq
    exact (hn.keeps_opening (keeps_intercalate hargs)).concat (by omega) (by omega)

theorem Unfinished.keeps {d : Nat} {text : List Char} (h : Unfinished d text) : Keeps d text := by
  induction h with
  | nil => exact keeps_nil 0
  | @call d name inner written hn hk ha h ih =>
    have hargs : ∀ text ∈ written.map Prod.fst,
        surplus (text ++ [',']) = 0 ∧ Keeps d (text ++ [',']) := by
      intro text ht
      obtain ⟨a, ha', rfl⟩ := List.mem_map.1 ht
      have hsurplus : surplus (a.1 ++ [',']) = 0 := by
        rw [surplus_append, (ha a ha').surplus_eq]
        rfl
      exact ⟨hsurplus, (ha a ha').keeps.concat (by omega) (by omega)⟩
    have hclosed : surplus ((written.map Prod.fst).flatMap (· ++ [','])) = 0 :=
      surplus_flatMap fun text ht => (hargs text ht).1
    -- the arguments and what is begun behind them stand inside the same brackets
    have hinner := (keeps_flatMap hargs).append ih (by omega)
    have hcall := hn.keeps_opening hinner
    rwa [← List.append_assoc] at hcall

end Grammar

/-! ## The place of the limit -/

variable {text : String} {mode : Mode} {D : Nat} {d : Diagnostic}

/-- **Where the depth limit is reported, a name ends that no keyword begins. As many brackets are open
there as the limit allows, and nowhere before it were more open, or more closed than opened.** -/
theorem limit_at (h : (parseWith { mode := mode, maxDepth := D } text).result = .error d)
    (hd : d.expected = "nesting depth of at most " ++ toString D) :
    ∃ before name rest, text.toList = before ++ name ++ rest ∧
      Text.byteLength (before ++ name) = d.offset ∧
      surplus (before ++ name) = D ∧
      (∀ front, front <+: before ++ name → 0 ≤ surplus front ∧ surplus front ≤ D) ∧
      IsName name ∧ Stops isNameChar rest ∧ (∀ b, ¬ keyword b <+: name) ∧
      (before = [] ∨ before.getLast? = some '(' ∨ before.getLast? = some ',') := by
  obtain ⟨before, name, rest, htext, hbegun, hname, hoffset⟩ := limit_iff.1 ⟨d, h, hd, rfl⟩
  have hword := hname.isName.isNameChar
  have hsurplus : surplus (before ++ name) = D := by
    rw [surplus_append, hbegun.surplus_eq, surplus_of_isNameChar hword, Int.add_zero]
  refine ⟨before, name, rest, ?_, hoffset.symm, hsurplus, ?_, hname.isName, hname.stops,
    hname.name_not_keyword, hbegun.getLast?_eq⟩
  · rw [htext, List.append_assoc]
  · exact hbegun.keeps.append (keeps_of_isNameChar 0 hword) (by rw [hbegun.surplus_eq]; omega)

/-- An argument list that is complete stands in front of one that is not. -/
theorem limit_at_second_argument :
    ∃ d, (parseWith { mode := .strict, maxDepth := 2 } "f(a(1),b(-2,c)").result = .error d ∧
      d.expected = "nesting depth of at most 2" ∧ d.offset = 13 ∧
      ∃ before name rest, "f(a(1),b(-2,c)".toList = before ++ name ++ rest ∧
        Text.byteLength (before ++ name) = d.offset ∧ surplus (before ++ name) = 2 ∧
        (∀ front, front <+: before ++ name → 0 ≤ surplus front ∧ surplus front ≤ 2) ∧
        IsName name ∧ Stops isNameChar rest := by
  have hone : ∀ d, Derives d ['1'] (.number 1) := fun d =>
    @Derives.number d [] ['1'] ⟨by decide, by decide, by simp⟩ (by decide) (by decide)
  have htwo : Derives 0 ['-', '2'] (.number (-2)) :=
    @Derives.number 0 ['-'] ['2'] ⟨by decide, by decide, by simp⟩ (by decide) (by decide)
  have hcall : Derives 1 "a(1)".toList (.call "a" [.number 1]) :=
    @Derives.call 0 ['a'] [(['1'], .number 1)] ⟨by decide, by simp⟩ (by decide)
      (by simpa using hone 0)
  have hinner : Unfinished 1 "b(-2,".toList :=
    @Unfinished.call 0 ['b'] [] [(['-', '2'], .number (-2))] ⟨by decide, by simp⟩ (by decide)
      (by simpa using htwo) .nil
  have hbegun : Unfinished 2 "f(a(1),b(-2,".toList :=
    @Unfinished.call 1 ['f'] _ [("a(1)".toList, .call "a" [.number 1])] ⟨by decide, by simp⟩
      (by decide) (by simpa using hcall) hinner
  have hname : NameAhead ['c', ')'] ['c'] [')'] :=
    ⟨⟨by decide, by simp⟩, by decide, stops_cons.2 (by decide), rfl⟩
  obtain ⟨d, h, hd, hoffset⟩ := (@limit_iff "f(a(1),b(-2,c)" .strict 2 13).2
    ⟨_, ['c'], [')'], rfl, hbegun, hname, rfl⟩
  obtain ⟨before, name, rest, htext, hplace, hsurplus, hkeeps, hisName, hstops, -⟩ := limit_at h hd
  exact ⟨d, h, hd, hoffset, before, name, rest, htext, hplace, hsurplus, hkeeps, hisName, hstops⟩

end Descent
