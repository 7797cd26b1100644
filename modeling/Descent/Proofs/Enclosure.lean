import Descent.Regex.Token.Scan
import Mathlib.Data.List.Basic

/-!
# A parenthesis behind a written form

What is read of a regular expression does not change when a closing parenthesis is written behind
it: no token that is complete goes on with one. There is one exception. In the extended form a
comment that is open at the end takes the parenthesis in.

* `Closed cs cs'` : `cs'` is `cs` with a closing parenthesis behind it, or `cs` itself;
* `Steady f` : with a closing parenthesis behind its text `f` reads the same, which is said here of
  escapes and of bracketed classes.

Both relate two texts and not a text and a longer one, so that a comment need not be told apart each
time: behind it the two texts are equal, and readers that follow each other compose (`Steady.bind`).
-/

namespace Descent.Regex

/-- The second case is that of a comment, which has taken the parenthesis in. -/
def Closed (cs cs' : List Char) : Prop := cs' = cs ++ [')'] ∨ cs' = cs

namespace Closed

variable {cs cs' rest : List Char} {c : Char} {p : Char → Bool}

theorem refl (cs : List Char) : Closed cs cs := .inr rfl

theorem cons (c : Char) (h : Closed cs cs') : Closed (c :: cs) (c :: cs') :=
  h.imp (congrArg (List.cons c)) (congrArg (List.cons c))

theorem of_cons (h : Closed (c :: cs) cs') : ∃ rest, cs' = c :: rest ∧ Closed cs rest := by
  rcases h with rfl | rfl
  · exact ⟨_, rfl, .inl rfl⟩
  · exact ⟨_, rfl, .inr rfl⟩

/-- No other character comes to the front. -/
theorem ne_cons (h : Closed cs cs') (hc : c ≠ ')') (hne : ∀ rest, cs ≠ c :: rest) :
    ∀ rest, cs' ≠ c :: rest := by
  rintro rest rfl
  rcases h with h | h
  · cases cs with
    | nil => exact hc (List.cons.inj h).1
    | cons d cs =>
      obtain ⟨rfl, -⟩ := List.cons.inj h
      exact hne cs rfl
  · exact hne rest h.symm

/-- Nor do two others. -/
theorem ne_cons_cons {d : Char} (h : Closed cs cs') (hc : c ≠ ')') (hd : d ≠ ')')
    (hne : ∀ rest, cs ≠ c :: d :: rest) : ∀ rest, cs' ≠ c :: d :: rest := by
  rintro rest rfl
  cases cs with
  | nil => exact h.ne_cons hc (fun _ h => nomatch h) _ rfl
  | cons e cs =>
    obtain ⟨_, heq, htail⟩ := h.of_cons
    cases heq
    refine htail.ne_cons hd (fun rest hcs => hne rest ?_) _ rfl
    rw [hcs]

theorem head?_eq_some (h : Closed cs cs') (hc : c ≠ ')') :
    cs'.head? = some c ↔ cs.head? = some c := by
  rcases h with rfl | rfl
  · cases cs with
    | nil =>
      simp only [List.nil_append, List.head?_cons, List.head?_nil, Option.some.injEq]
      exact ⟨fun h => absurd h.symm hc, fun h => nomatch h⟩
    | cons d cs => exact Iff.rfl
  · exact Iff.rfl

theorem tail (h : Closed cs cs') (hc : cs.head? = some c) : Closed cs.tail cs'.tail := by
  obtain ⟨rest, rfl⟩ := List.head?_eq_some_iff.1 hc
  obtain ⟨rest', rfl, htail⟩ := h.of_cons
  exact htail

theorem length_le (h : Closed cs cs') : cs.length ≤ cs'.length := by
  rcases h with rfl | rfl
  · rw [List.length_append]
    omega
  · exact Nat.le_refl _

theorem length_lt (h : Closed rest cs') (hlength : rest.length < cs.length) :
    cs'.length < (cs ++ [')']).length := by
  rcases h with rfl | rfl
  · simpa using hlength
  · rw [List.length_append]
    omega

theorem take (h : Closed cs cs') {n : Nat} (hn : n ≤ cs.length) : cs'.take n = cs.take n := by
  rcases h with rfl | rfl
  · exact List.take_append_of_le_length hn
  · rfl

theorem drop (h : Closed cs cs') {n : Nat} (hn : n ≤ cs.length) :
    Closed (cs.drop n) (cs'.drop n) := by
  rcases h with rfl | rfl
  · exact .inl (List.drop_append_of_le_length hn)
  · exact .inr rfl

theorem ne_nil (h : Closed cs cs') (hne : cs ≠ []) : cs' ≠ [] :=
  List.ne_nil_of_length_pos (Nat.lt_of_lt_of_le (List.length_pos_of_ne_nil hne) h.length_le)

theorem takeWhile_eq (h : Closed cs cs') (hp : p ')' = false) :
    cs'.takeWhile p = cs.takeWhile p := by
  rcases h with rfl | rfl
  · rw [List.takeWhile_append]
    split
    · next hall => simp [hp, (List.takeWhile_prefix p).eq_of_length hall]
    · rfl
  · rfl

theorem drop_takeWhile (h : Closed cs cs') :
    Closed (cs.drop (cs.takeWhile p).length) (cs'.drop (cs.takeWhile p).length) :=
  h.drop (List.takeWhile_prefix p).length_le

/-- A run of characters that is over is over at the same place. -/
theorem takeWhile (h : Closed cs cs') (hrest : cs.drop (cs.takeWhile p).length = c :: rest) :
    cs'.takeWhile p = cs.takeWhile p ∧
      ∃ rest', cs'.drop (cs.takeWhile p).length = c :: rest' ∧ Closed rest rest' := by
  have hlength : (cs.takeWhile p).length < cs.length := by
    refine Nat.lt_of_not_ge fun hge => ?_
    rw [List.drop_eq_nil_of_le hge] at hrest
    cases hrest
  constructor
  · rcases h with rfl | rfl
    · rw [List.takeWhile_append, if_neg (Nat.ne_of_lt hlength)]
    · rfl
  · have hdrop := h.drop_takeWhile (p := p)
    rw [hrest] at hdrop
    exact hdrop.of_cons

/-- A run that goes on to the end takes the parenthesis along. -/
theorem drop_takeWhile_eq_nil (h : Closed cs cs') (hp : p ')' = true)
    (hnil : cs.drop (cs.takeWhile p).length = []) : cs'.drop (cs'.takeWhile p).length = [] := by
  rcases h with rfl | rfl
  · have hall : (cs.takeWhile p).length = cs.length :=
      Nat.le_antisymm (List.takeWhile_prefix p).length_le (List.drop_eq_nil_iff.1 hnil)
    rw [List.takeWhile_append, if_pos hall, List.takeWhile_cons_of_pos hp, List.takeWhile_nil,
      List.drop_length]
  · exact hnil

end Closed

/-- What `f` reads of a text it reads of the text with the parenthesis behind it, and then the two stand
at the same place. -/
def Steady {α : Type} (f : List Char → Except Fault (α × List Char)) : Prop :=
  ∀ ⦃cs cs' a rest⦄, Closed cs cs' → f cs = .ok (a, rest) →
    ∃ rest', f cs' = .ok (a, rest') ∧ Closed rest rest'

section
variable {α β : Type} {f : List Char → Except Fault (α × List Char)}

theorem bind_eq_ok {x : Except Fault α} {g : α → Except Fault β} {b : β} :
    (x >>= g) = .ok b ↔ ∃ a, x = .ok a ∧ g a = .ok b := by
  cases x with
  | error f =>
    constructor
    · intro h
      cases h
    · rintro ⟨_, h, -⟩
      cases h
  | ok a =>
    constructor
    · exact fun h => ⟨a, rfl, h⟩
    · rintro ⟨_, h, hg⟩
      cases h
      exact hg

theorem ok_bind (a : α) (g : α → Except Fault β) : (Except.ok a >>= g) = g a := rfl

theorem steady_ok (a : α) : Steady fun cs => .ok (a, cs) := by
  intro cs cs' _ _ h hok
  cases hok
  exact ⟨cs', rfl, h⟩

theorem Steady.bind {g : α × List Char → Except Fault (β × List Char)} (hf : Steady f)
    (hg : ∀ a, Steady fun cs => g (a, cs)) : Steady fun cs => f cs >>= g := by
  intro cs cs' b last h hok
  obtain ⟨⟨a, rest⟩, hfirst, hsecond⟩ := bind_eq_ok.1 hok
  obtain ⟨rest', hfirst', hrest⟩ := hf h hfirst
  obtain ⟨last', hsecond', hlast⟩ := hg a hrest hsecond
  exact ⟨last', bind_eq_ok.2 ⟨(a, rest'), hfirst', hsecond'⟩, hlast⟩

/-- What is made of what has been read has no say in where reading stops. -/
theorem Steady.convert (hf : Steady f) (g : α → Except Fault β) :
    Steady fun cs => f cs >>= fun read => g read.1 >>= fun b => .ok (b, read.2) := by
  refine hf.bind fun a cs cs' b rest h hok => ?_
  obtain ⟨b, hb, hrest⟩ := bind_eq_ok.1 hok
  cases hrest
  exact ⟨cs', bind_eq_ok.2 ⟨b, hb, rfl⟩, h⟩

end

/-! ## Blanks and comments -/

theorem closed_skipLine (cs : List Char) : Closed (skipLine cs) (skipLine (cs ++ [')'])) := by
  fun_induction skipLine cs with
  | case1 => exact .inr rfl
  | case2 cs => exact .inl (by simp [skipLine])
  | case3 c cs hc ih => simpa [skipLine, hc] using ih

theorem closed_skipExtended (cs : List Char) :
    Closed (skipExtended cs) (skipExtended (cs ++ [')'])) := by
  have hblank : Text.isBlank ')' = false := by decide
  fun_induction skipExtended cs with
  | case1 => exact .inl (by simp [skipExtended, hblank])
  | case2 c cs hc ih => simpa [skipExtended, hc] using ih
  | case3 cs hc ih =>
    rw [List.cons_append, skipExtended, if_neg hc, if_pos rfl]
    rcases closed_skipLine cs with h | h
    · rw [h]
      exact ih
    · exact .inr (by rw [h])
  | case4 c cs hc hne => exact .inl (by simp [skipExtended, hc, hne])

theorem Closed.skipBlanks {cs cs' : List Char} (h : Closed cs cs') (extended : Bool) :
    Closed (skipBlanks extended cs) (skipBlanks extended cs') := by
  rcases h with rfl | rfl
  · unfold Regex.skipBlanks
    split
    · exact closed_skipExtended cs
    · exact .inl rfl
  · exact .refl _

/-! ## Escapes -/

namespace Escape

theorem steady_readCodePoint (width : Nat) : Steady (readCodePoint width) := by
  intro cs cs' e rest h hok
  unfold readCodePoint at hok
  split at hok
  · next cs =>
    obtain ⟨cs', rfl, htail⟩ := h.of_cons
    dsimp only at hok
    split at hok
    · next hdrop =>
      obtain ⟨htake', rest', hdrop', hrest'⟩ := htail.takeWhile hdrop
      obtain ⟨e', he, hrest⟩ := bind_eq_ok.1 hok
      cases hrest
      refine ⟨rest', ?_, hrest'⟩
      rw [readCodePoint, htake', hdrop']
      exact bind_eq_ok.2 ⟨e, he, rfl⟩
    · cases hok
  · next hne =>
    split at hok
    · cases hok
    · next hwidth =>
      obtain ⟨e', he, hrest⟩ := bind_eq_ok.1 hok
      cases hrest
      have hlength : width ≤ cs.length := Nat.not_lt.1 hwidth
      refine ⟨_, ?_, h.drop hlength⟩
      rw [readCodePoint.eq_2 _ _ (h.ne_cons (by decide) hne),
        if_neg (Nat.not_lt.2 (Nat.le_trans hlength h.length_le)), h.take hlength]
      exact bind_eq_ok.2 ⟨e, he, rfl⟩

theorem steady_readBoundary : Steady readBoundary := by
  intro cs cs' e rest h hok
  unfold readBoundary at hok
  split at hok
  · next cs =>
    obtain ⟨cs', rfl, htail⟩ := h.of_cons
    split at hok
    · cases hok
    · next hempty =>
      have hempty' : ¬ cs'.isEmpty = true :=
        mt List.isEmpty_iff.1 (htail.ne_nil (mt List.isEmpty_iff.2 hempty))
      have hname' := htail.takeWhile_eq (p := fun c => c.isAlpha || c = '-') (by decide)
      rw [readBoundary, if_neg hempty', hname']
      dsimp only at hok ⊢
      split at hok
      · next hname =>
        cases hok
        exact ⟨_, if_pos hname, h⟩
      · next hname =>
        split at hok
        · next hdrop ha =>
          cases hok
          have hrest := htail.drop_takeWhile (p := fun c => c.isAlpha || c = '-')
          rw [hdrop] at hrest
          obtain ⟨rest', hdrop', hrest'⟩ := hrest.of_cons
          refine ⟨rest', ?_, hrest'⟩
          rw [hdrop', ha]
          exact if_neg hname
        · cases hok
  · next hne =>
    cases hok
    exact ⟨cs', readBoundary.eq_2 _ (h.ne_cons (by decide) hne), h⟩

theorem steady_read : Steady read := by
  intro cs cs' e rest h hok
  unfold read at hok
  split at hok
  · cases hok
  · next c cs =>
    obtain ⟨cs', rfl, htail⟩ := h.of_cons
    split at hok
    · exact steady_readCodePoint 2 htail hok
    · exact steady_readCodePoint 4 htail hok
    · exact steady_readCodePoint 8 htail hok
    case h_18 => exact steady_readBoundary htail hok
    case h_22 =>
      split at hok
      · cases hok
      · next hdigit =>
        split at hok
        · next hescape =>
          cases hok
          refine ⟨cs', ?_, htail⟩
          rw [read, if_neg hdigit, if_pos hescape]
          · rfl
          all_goals assumption
        · cases hok
    all_goals
      cases hok
      exact ⟨cs', rfl, htail⟩

end Escape

/-! ## Bracketed classes -/

/-- What is no named class does not become one. -/
theorem readAsciiClass_closed {cs cs' : List Char} (h : Closed cs cs') :
    (readAsciiClass cs = none ∧ readAsciiClass cs' = none) ∨
      ∃ s rest rest', readAsciiClass cs = some (s, rest) ∧ readAsciiClass cs' = some (s, rest') ∧
        Closed rest rest' := by
  by_cases hcolon : ∃ rest, cs = ':' :: rest
  · obtain ⟨cs, rfl⟩ := hcolon
    obtain ⟨cs', rfl, htail⟩ := h.of_cons
    unfold readAsciiClass
    simp only [htail.head?_eq_some (c := '^') (by decide)]
    have hname : Closed (if cs.head? = some '^' then cs.tail else cs)
        (if cs.head? = some '^' then cs'.tail else cs') := by
      split
      · next hnegated => exact htail.tail hnegated
      · exact htail
    generalize (if cs.head? = some '^' then cs.tail else cs) = name at hname ⊢
    generalize (if cs.head? = some '^' then cs'.tail else cs') = name' at hname ⊢
    cases hdrop : name.drop (name.takeWhile (· ≠ ':')).length with
    | nil =>
      rw [hname.drop_takeWhile_eq_nil (by decide) hdrop]
      exact .inl ⟨rfl, rfl⟩
    | cons c behind =>
      obtain ⟨htake', behind', hdrop', hbehind⟩ := hname.takeWhile hdrop
      rw [htake', hdrop']
      by_cases hclose : ∃ rest, c :: behind = ':' :: ']' :: rest
      · obtain ⟨rest, heq⟩ := hclose
        cases heq
        obtain ⟨rest', rfl, hrest⟩ := hbehind.of_cons
        cases asciiClass (String.ofList (name.takeWhile (· ≠ ':'))) with
        | none => exact .inl ⟨rfl, rfl⟩
        | some ranges => exact .inr ⟨_, rest, rest', rfl, rfl, hrest⟩
      · have hne : ∀ rest, c :: behind ≠ ':' :: ']' :: rest := fun rest heq => hclose ⟨rest, heq⟩
        have hne' := (hbehind.cons c).ne_cons_cons (by decide) (by decide) hne
        refine .inl ⟨?_, ?_⟩
        · split
          · next heq _ => exact absurd heq (hne _)
          · rfl
        · split
          · next heq _ => exact absurd heq (hne' _)
          · rfl
  · have hne : ∀ rest, cs ≠ ':' :: rest := fun rest heq => hcolon ⟨rest, heq⟩
    exact .inl ⟨readAsciiClass.eq_2 _ hne, readAsciiClass.eq_2 _ (h.ne_cons (by decide) hne)⟩

theorem steady_readHyphens (extended : Bool) (o : OpenClass) :
    Steady fun cs => .ok (readHyphens extended o cs) := by
  intro cs cs' o' rest h hok
  have hread := Except.ok.inj hok
  clear hok
  fun_induction readHyphens extended o cs generalizing cs' with
  | case1 o behind _ ih =>
    obtain ⟨behind', rfl, htail⟩ := h.of_cons
    dsimp only
    rw [readHyphens.eq_1]
    exact ih (htail.skipBlanks extended) hread
  | case2 o cs hne =>
    cases hread
    exact ⟨cs', congrArg _ (readHyphens.eq_2 _ _ _ (h.ne_cons (by decide) hne)), h⟩

theorem steady_openClass (extended : Bool) : Steady fun cs => .ok (openClass extended cs) := by
  intro cs cs' o rest h hok
  unfold openClass at hok ⊢
  dsimp only at hok ⊢
  have hskip := h.skipBlanks extended
  generalize skipBlanks extended cs = front at hok hskip
  generalize skipBlanks extended cs' = front' at hskip ⊢
  simp only [hskip.head?_eq_some (c := '^') (by decide)]
  have hitems : Closed (if front.head? = some '^' then skipBlanks extended front.tail else front)
      (if front.head? = some '^' then skipBlanks extended front'.tail else front') := by
    split
    · next hnegated => exact (hskip.tail hnegated).skipBlanks extended
    · exact hskip
  generalize (if front.head? = some '^' then skipBlanks extended front.tail else front) = items
    at hok hitems
  generalize (if front.head? = some '^' then skipBlanks extended front'.tail else front') = items'
    at hitems ⊢
  split at hok
  · obtain ⟨behind', rfl, hbehind⟩ := hitems.of_cons
    exact steady_ok _ hbehind hok
  · next hne =>
    split
    · exact absurd rfl (hitems.ne_cons (by decide) hne _)
    · exact steady_readHyphens extended _ hitems hok

theorem steady_readClassItem : Steady readClassItem := by
  intro cs cs' e rest h hok
  unfold readClassItem at hok
  split at hok
  · cases hok
  · next cs =>
    obtain ⟨cs', rfl, htail⟩ := h.of_cons
    exact Escape.steady_read htail hok
  · next c cs hne =>
    cases hok
    obtain ⟨cs', rfl, htail⟩ := h.of_cons
    refine ⟨cs', ?_, htail⟩
    rw [readClassItem]
    · rfl
    · exact hne

theorem steady_readClassRange (extended : Bool) : Steady (readClassRange extended) := by
  refine steady_readClassItem.bind fun first cs cs' s rest h hok => ?_
  have hskip := h.skipBlanks extended
  dsimp only at hok ⊢
  generalize skipBlanks extended cs = front at hok hskip
  generalize skipBlanks extended cs' = front' at hskip ⊢
  have hitem : Steady fun cs => first.toSet >>= fun s => .ok (s, cs) :=
    (steady_ok ()).convert fun _ => first.toSet
  split at hok
  · next behind =>
    obtain ⟨behind', rfl, hbehind⟩ := hskip.of_cons
    have hskip' := hbehind.skipBlanks extended
    simp only
    generalize skipBlanks extended behind = back at hok hskip'
    generalize skipBlanks extended behind' = back' at hskip' ⊢
    split at hok
    · obtain ⟨_, rfl, -⟩ := hskip'.of_cons
      exact hitem hskip hok
    · obtain ⟨_, rfl, -⟩ := hskip'.of_cons
      exact hitem hskip hok
    · next hbracket hhyphen =>
      split
      · exact absurd rfl (hskip'.ne_cons (by decide) hbracket _)
      · exact absurd rfl (hskip'.ne_cons (by decide) hhyphen _)
      · exact steady_readClassItem.convert (rangeBetween first) hskip' hok
  · next hne =>
    split
    · exact absurd rfl (hskip.ne_cons (by decide) hne _)
    · exact hitem hskip hok

theorem steady_classStep (extended : Bool) (o : OpenClass) (outer : List OpenClass) :
    Steady (classStep extended o outer) := by
  intro cs cs' state rest h hok
  unfold classStep at hok ⊢
  have hskip := h.skipBlanks extended
  generalize skipBlanks extended cs = front at hok hskip
  generalize skipBlanks extended cs' = front' at hskip ⊢
  split at hok
  · cases hok
  · next behind =>
    obtain ⟨behind', rfl, hbehind⟩ := hskip.of_cons
    simp only
    split
    · exact steady_ok _ hbehind hok
    · exact steady_ok _ hbehind hok
  · next behind =>
    obtain ⟨behind', rfl, hbehind⟩ := hskip.of_cons
    simp only
    rcases readAsciiClass_closed hbehind with ⟨hs, hs'⟩ | ⟨s, last, last', hs, hs', hlast⟩
    · rw [hs] at hok
      rw [hs']
      exact (steady_openClass extended).convert (fun o' => .ok (ClassState.inside o' (o :: outer)))
        hbehind hok
    · rw [hs] at hok
      rw [hs']
      exact steady_ok _ hlast hok
  case h_4 | h_5 | h_6 =>
    obtain ⟨behind', rfl, hbehind⟩ := hskip.of_cons
    obtain ⟨last', rfl, hlast⟩ := hbehind.of_cons
    exact steady_ok _ hlast hok
  · next hnil hclose hopen hand hhyphens htildes =>
    split
    · exact absurd rfl (hskip.ne_nil hnil)
    · exact absurd rfl (hskip.ne_cons (by decide) hclose _)
    · exact absurd rfl (hskip.ne_cons (by decide) hopen _)
    · exact absurd rfl (hskip.ne_cons_cons (by decide) (by decide) hand _)
    · exact absurd rfl (hskip.ne_cons_cons (by decide) (by decide) hhyphens _)
    · exact absurd rfl (hskip.ne_cons_cons (by decide) (by decide) htildes _)
    · exact (steady_readClassRange extended).convert
        (fun s => .ok (ClassState.inside (o.add s) outer)) hskip hok

theorem steady_readClass (extended : Bool) (o : OpenClass) (outer : List OpenClass) :
    Steady (readClass extended o outer) := by
  intro cs cs' s last h hok
  induction hlength : cs.length using Nat.strongRecOn generalizing o outer cs cs' with
  | ind length ih =>
    rcases h with rfl | rfl
    case inr => exact ⟨last, hok, .refl last⟩
    rw [readClass] at hok
    obtain ⟨⟨state, rest⟩, hstep, hok⟩ := bind_eq_ok.1 hok
    obtain ⟨rest', hstep', hrest⟩ := steady_classStep extended o outer (.inl rfl) hstep
    rw [readClass, hstep']
    cases state with
    | closed s => exact steady_ok s hrest hok
    | inside o outer =>
      dsimp only at hok
      split at hok
      · next hshorter =>
        obtain ⟨last', hread, hlast⟩ := ih _ (by omega) o outer hrest hok rfl
        exact ⟨last', (if_pos (hrest.length_lt hshorter)).trans hread, hlast⟩
      · cases hok

end Descent.Regex
