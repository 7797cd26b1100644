import Descent.Proofs.Preference
import Descent.Proofs.Scanning

/-!
# Two ways of anchoring

A pattern can be tied to the cursor in its source, by `^(?:` in front and a parenthesis behind, or by
asking where the match that a search finds starts. The two agree wherever both sources can be read
(`Pattern.parser_ofSource`). The source in the group is read as it is alone: it opens and closes the
same groups inside one group more (`Reader.foldlM_inside`), its flags end with that group, and the
parenthesis behind it closes the group (`scan_closed`). A search, on the other side, goes on behind
the cursor only if nothing matches there.

A comment at the end of the source takes in the parenthesis. Then the group stays open and the
anchored source cannot be read.
-/

namespace Descent

namespace Regex

/-! ## In one group more -/

/-- The same scope in one group more, outside of all the others. -/
def Token.Scope.inside (scope : Scope) (extended : Bool) : Scope :=
  { scope with outer := scope.outer ++ [extended] }

/-- The same state in one group more, outside of all the others. -/
def Reader.inside (b : Reader) (g : OpenGroup) : Reader := { b with outer := b.outer ++ [g] }

section
variable {b b' : Reader} {token : Token}

theorem Reader.take_inside (g : OpenGroup) (h : b.take token = .ok b') :
    (b.inside g).take token = .ok (b'.inside g) := by
  cases token with
  | openGroup changes name =>
    simp only [take, openGroup, inside] at h ⊢
    split at h
    · cases h
    · next hname =>
      cases h
      exact if_neg hname
  | closeGroup =>
    obtain ⟨inner, outer, names⟩ := b
    cases outer with
    | nil => cases h
    | cons g' outer =>
      cases h
      rfl
  | quantifier least most isLazy =>
    obtain ⟨inner, hinner, hb⟩ := bind_eq_ok.1 h
    cases hb
    exact bind_eq_ok.2 ⟨inner, hinner, rfl⟩
  | _ =>
    cases h
    rfl

theorem Reader.foldlM_inside (g : OpenGroup) {tokens : List Token}
    (h : tokens.foldlM take b = .ok b') : tokens.foldlM take (b.inside g) = .ok (b'.inside g) := by
  induction tokens generalizing b with
  | nil =>
    cases h
    rfl
  | cons token tokens ih =>
    rw [List.foldlM_cons] at h ⊢
    obtain ⟨b₁, htake, hrest⟩ := bind_eq_ok.1 h
    rw [take_inside g htake, ok_bind]
    exact ih hrest

/-- Scopes and groups are opened and closed together. -/
theorem Token.Scope.length_after {scope : Token.Scope} (h : b.take token = .ok b')
    (hlevel : scope.outer.length = b.outer.length) :
    (scope.after token).outer.length = b'.outer.length := by
  obtain ⟨inner, outer, names⟩ := b
  obtain ⟨here, scopes⟩ := scope
  cases token with
  | openGroup changes name =>
    simp only [Reader.take, Reader.openGroup] at h
    split at h
    · cases h
    · cases h
      exact congrArg (· + 1) hlevel
  | closeGroup =>
    cases outer with
    | nil => cases h
    | cons g outer =>
      cases h
      cases scopes with
      | nil => cases hlevel
      | cons extended scopes => exact Nat.succ.inj hlevel
  | quantifier least most isLazy =>
    obtain ⟨inner, hinner, hb⟩ := bind_eq_ok.1 h
    cases hb
    exact hlevel
  | _ =>
    cases h
    exact hlevel

theorem Token.Scope.after_inside {scope : Token.Scope} (extended : Bool) (h : b.take token = .ok b')
    (hlevel : scope.outer.length = b.outer.length) :
    (scope.inside extended).after token = (scope.after token).inside extended := by
  cases token with
  | closeGroup =>
    obtain ⟨inner, outer, names⟩ := b
    obtain ⟨here, scopes⟩ := scope
    cases outer with
    | nil => cases h
    | cons g outer =>
      cases scopes with
      | nil => cases hlevel
      | cons extended scopes => rfl
  | _ => rfl

end

/-! ## The parenthesis behind a source -/

/-- The parenthesis is read as a token of its own, if no comment takes it in. -/
theorem Token.scan_closed {scope : Token.Scope} {b b' : Reader} {cs cs' : List Char}
    {tokens : List Token} (extended : Bool) (h : Closed cs cs')
    (hscan : Token.scan scope cs = .ok tokens) (hread : tokens.foldlM Reader.take b = .ok b')
    (hlevel : scope.outer.length = b.outer.length) :
    ∃ tokens', Token.scan (scope.inside extended) cs' = .ok tokens' ∧
      (tokens' = tokens ++ [.closeGroup] ∨ tokens' = tokens) := by
  -- the reader says that no token closes more groups than are open, so the scopes do not run out
  induction hlength : cs.length using Nat.strongRecOn generalizing scope b cs cs' tokens with
  | ind length ih =>
    have hskip : Closed (skipBlanks scope.here cs) (skipBlanks (scope.inside extended).here cs') :=
      h.skipBlanks scope.here
    rcases scan_ok hscan with
      ⟨hnil, rfl⟩ | ⟨c, behind, token, rest, others, hfront, hnext, hshorter, hothers, rfl⟩
    · rw [hnil] at hskip
      rcases hskip with hskip | hskip
      · have hpositive : 0 < cs'.length := by
          have := length_skipBlanks_le (scope.inside extended).here cs'
          rw [hskip] at this
          exact this
        refine ⟨[.closeGroup], ?_, .inl rfl⟩
        rw [scan_of_next hskip rfl hpositive, scan_of_skipped (skipBlanks_nil _), ok_bind]
      · exact ⟨[], scan_of_skipped hskip, .inr rfl⟩
    · rw [hfront] at hskip
      obtain ⟨behind', hfront', hbehind⟩ := hskip.of_cons
      obtain ⟨rest', hnext', hrest', hshorter'⟩ : ∃ rest',
          next scope.here c behind' = .ok (token, rest') ∧ Closed rest rest' ∧
            rest'.length < cs'.length := by
        rcases h with rfl | rfl
        · obtain ⟨rest', hnext', hrest'⟩ := steady_next scope.here c hbehind hnext
          exact ⟨rest', hnext', hrest', hrest'.length_lt hshorter⟩
        · cases hfront.symm.trans hfront'
          exact ⟨rest, hnext, .refl rest, hshorter⟩
      rw [List.foldlM_cons] at hread
      obtain ⟨b₁, htake, hread⟩ := bind_eq_ok.1 hread
      obtain ⟨tokens', hscan', htokens'⟩ := ih _ (by omega) hrest' hothers hread
        (Scope.length_after htake hlevel) rfl
      rw [← Scope.after_inside extended htake hlevel] at hscan'
      refine ⟨token :: tokens', ?_, htokens'.imp (congrArg _) (congrArg _)⟩
      rw [scan_of_next hfront' hnext' hshorter', hscan', ok_bind]

/-! ## The anchored source -/

/-- What has been read in front of a group that the start of the text is anchored to. -/
def anchorRead : OpenGroup := (OpenGroup.begin {}).push (.anchor .textStart)

theorem scan_anchored (source : String) :
    Token.scan { here := false, outer := [] } (Pattern.anchored source).toList =
      Token.scan { here := false, outer := [false] } (source.toList ++ [')']) >>= fun tokens =>
        .ok (.caret :: .openGroup [] none :: tokens) := by
  have htext : (Pattern.anchored source).toList =
      '^' :: '(' :: '?' :: ':' :: (source.toList ++ [')']) := by
    simp [Pattern.anchored]
  rw [htext]
  generalize source.toList ++ [')'] = cs
  have hcaret : Token.next false '^' ('(' :: '?' :: ':' :: cs) =
      .ok (.caret, '(' :: '?' :: ':' :: cs) := rfl
  have hgroup : Token.next false '(' ('?' :: ':' :: cs) = .ok (.openGroup [] none, cs) := rfl
  have hshorter : cs.length < ('(' :: '?' :: ':' :: cs).length := by
    simp only [List.length_cons]
    omega
  rw [Token.scan_of_next rfl hcaret (Nat.lt_succ_self _), Token.scan_of_next rfl hgroup hshorter]
  show (Token.scan { here := false, outer := [false] } cs >>= _) >>= _ = _
  cases Token.scan { here := false, outer := [false] } cs <;> rfl

theorem Reader.finish_ok {b : Reader} {r : Regex} (h : b.finish = .ok r) :
    b.outer = [] ∧ r = b.inner.close := by
  unfold finish at h
  split at h
  · next hempty =>
    dsimp only at h
    split at h
    · cases h
      exact ⟨List.isEmpty_iff.1 hempty, rfl⟩
    · cases h
  · cases h

/-- What an anchored source is read as, if the source alone can be read. -/
theorem eq_atTextStart {source : String} {r r' : Regex} (hr : ofString source = .ok r)
    (hr' : ofString (Pattern.anchored source) = .ok r') : r' = atTextStart r := by
  obtain ⟨tokens, hscan, hread⟩ := bind_eq_ok.1 hr
  obtain ⟨b, hfold, hfinish⟩ := bind_eq_ok.1 hread
  obtain ⟨tokens', hscan', htokens'⟩ := Token.scan_closed false (.inl rfl) hscan hfold rfl
  have hinside := Reader.foldlM_inside anchorRead hfold
  have hread' : tokens'.foldlM Reader.take (Reader.start.inside anchorRead) >>= Reader.finish =
      .ok r' := by
    rw [ofString, scan_anchored, show Token.scan { here := false, outer := [false] }
      (source.toList ++ [')']) = .ok tokens' from hscan'] at hr'
    exact hr'
  obtain ⟨b', hfold', hfinish'⟩ := bind_eq_ok.1 hread'
  obtain ⟨houter', hclose'⟩ := b'.finish_ok hfinish'
  obtain ⟨inner, outer, names⟩ := b
  obtain ⟨rfl, rfl⟩ := Reader.finish_ok hfinish
  rcases htokens' with rfl | rfl
  · rw [List.foldlM_append, hinside, ok_bind] at hfold'
    cases hfold'
    exact hclose'
  · -- the comment at the end has taken in the parenthesis, and the group is open
    cases hinside.symm.trans hfold'
    cases houter'

/-- A source that can be read alone, and not anchored: its comment goes on to the end. -/
example : (ofString "(?x)a#").toOption = some (.seq (.set false (.single 'a')) .empty) ∧
    (ofString (Pattern.anchored "(?x)a#")).toOption = none := by decide +kernel

end Regex

namespace Pattern

open Regex

/-- **Tied to the start of a text in its source, a pattern does what it does when its match has to
start at the cursor.** It succeeds where there is a match, and with the one preferred there. -/
theorem parser_ofSource {source : String} {r r' : Regex} (hr : Regex.ofString source = .ok r)
    (hr' : Regex.ofString (anchored source) = .ok r') (label : String) (c : Cursor) :
    (ofSource source label).parser c = .silent (c.matchPattern r label) ∧
      ((∃ found, c.matchPattern r label = .ok found) ↔ ∃ q, r.Matches ⟨none, c.ahead⟩ q) ∧
      (∀ word next, c.matchPattern r label = .ok (word, next) ↔
        ∃ q, (r.ends ⟨none, c.ahead⟩).head? = some q ∧ c.ahead = word.toList ++ q.ahead ∧
          next = c.forward word.toList.length) ∧
      ∀ f, c.matchPattern r label = .error f →
        f = { expected := label, position := c.position } := by
  obtain rfl : r' = atTextStart r := eq_atTextStart hr hr'
  have hsame : (ofSource source label).parser c = .silent (c.matchPattern r label) :=
    (parser_of_regex hr' c).trans (congrArg Run.silent (matchPattern_atTextStart r label c))
  exact ⟨hsame, Cursor.exists_matchPattern_eq_ok_iff, fun _ _ => Cursor.matchPattern_eq_ok_iff,
    fun _ => Cursor.matchPattern_eq_error⟩

/-- Alternatives, a lazy repetition and a flag that must not reach the caret in front: the match in
the second line does not count. -/
theorem parser_ofSource_lines :
    let source := "b+?|(?m)^a"
    let r : Regex := .alt (.seq (.rounds (.set false (.single 'b')) 1 none false) .empty)
      (.seq (.anchor .lineStart) (.seq (.set false (.single 'a')) .empty))
    let p := (ofSource source "item").parser
    let ahead (text : String) : Cursor :=
      { passed := ['x'], ahead := text.toList, depth := 0, maxDepth := 0 }
    Regex.ofString source = .ok r ∧ Regex.ofString (anchored source) = .ok (atTextStart r) ∧
      r.find "\nab".toList = some { start := 1, text := ['a'] } ∧
      p (ahead "\nab") = .fail { expected := "item", position := 1 } ∧
      p (ahead "bba") = .succeed "b" ((ahead "bba").forward 1) := by
  intro source r p ahead
  have hr : Regex.ofString source = .ok r := eq_ok_of_toOption (by decide +kernel)
  have hr' : Regex.ofString (anchored source) = .ok (atTextStart r) :=
    eq_ok_of_toOption (by decide +kernel)
  have hfind : r.find "\nab".toList = some { start := 1, text := ['a'] } := by decide +kernel
  have hfirst : r.find "bba".toList = some { start := 0, text := ['b'] } := by decide +kernel
  refine ⟨hr, hr', hfind, ?_, ?_⟩
  · refine (parser_ofSource hr hr' "item" (ahead "\nab")).1.trans ?_
    rw [Cursor.matchPattern, hfind]
    rfl
  · refine (parser_ofSource hr hr' "item" (ahead "bba")).1.trans ?_
    rw [Cursor.matchPattern, hfirst]
    rfl

end Pattern

end Descent
