import Descent.Proofs.Enclosure

/-!
# Tokens in front of a closing parenthesis

Every token is read as it is with a closing parenthesis behind the text, and so is the row of tokens
up to the end of the text. What comes behind that row is said where it is known which groups are
open.

* `steady_next` : one token;
* `scan_ok`, `scan_of_next`, `scan_of_skipped` : a scan, token by token.
-/

namespace Descent.Regex

namespace Token

/-! ## Quantifiers -/

theorem steady_quantified (least : Nat) (most : Option Nat) :
    Steady fun cs => .ok (quantified least most cs) := by
  intro cs cs' token rest h hok
  unfold quantified readLazy at hok ⊢
  dsimp only at hok ⊢
  split at hok
  · obtain ⟨behind', rfl, hbehind⟩ := h.of_cons
    exact steady_ok _ hbehind hok
  · next hne =>
    split
    · exact absurd rfl (h.ne_cons (by decide) hne _)
    · exact steady_ok _ h hok

theorem closed_dropBlanks {cs cs' : List Char} (h : Closed cs cs') :
    Closed (dropBlanks cs) (dropBlanks cs') := by
  rcases h with rfl | rfl
  · left
    unfold dropBlanks
    rw [List.dropWhile_append]
    split
    · next hempty =>
      rw [List.isEmpty_iff.1 hempty]
      decide
    · rfl
  · exact .refl _

theorem readDigits_closed {cs cs' digits rest : List Char} (h : Closed cs cs')
    (hread : readDigits cs = (digits, rest)) :
    ∃ rest', readDigits cs' = (digits, rest') ∧ Closed rest rest' := by
  have hblanks := closed_dropBlanks h
  have hdigits : (dropBlanks cs').takeWhile Char.isDigit = (dropBlanks cs).takeWhile Char.isDigit :=
    hblanks.takeWhile_eq (by decide)
  cases hread
  refine ⟨_, ?_, closed_dropBlanks hblanks.drop_takeWhile⟩
  rw [← hdigits]
  rfl

theorem steady_readCounts (extended : Bool) : Steady (readCounts extended) := by
  intro cs cs' token last h hok
  unfold readCounts at hok ⊢
  rcases hread : readDigits (skipBlanks extended cs) with ⟨digits, rest⟩
  obtain ⟨rest', hread', hrest⟩ := readDigits_closed (h.skipBlanks extended) hread
  rw [hread] at hok
  obtain ⟨least, hleast, hbehind⟩ := bind_eq_ok.1 hok
  clear hok
  rw [hread']
  dsimp only
  rw [hleast, ok_bind]
  split at hbehind
  · obtain ⟨behind', rfl, hclosed⟩ := hrest.of_cons
    exact steady_quantified _ _ (hclosed.skipBlanks extended) hbehind
  · next behind =>
    obtain ⟨behind', rfl, hclosed⟩ := hrest.of_cons
    have hskip := hclosed.skipBlanks extended
    simp only
    generalize skipBlanks extended behind = front at hbehind hskip
    generalize skipBlanks extended behind' = front' at hskip ⊢
    split at hbehind
    · obtain ⟨last', rfl, hlast⟩ := hskip.of_cons
      exact steady_quantified _ _ (hlast.skipBlanks extended) hbehind
    · next hne =>
      split
      · exact absurd rfl (hskip.ne_cons (by decide) hne _)
      rcases hread : readDigits front with ⟨digits, rest⟩
      obtain ⟨rest', hread', hrest⟩ := readDigits_closed hskip hread
      rw [hread] at hbehind
      obtain ⟨most, hmost, hclose⟩ := bind_eq_ok.1 hbehind
      clear hbehind
      rw [hread']
      dsimp only
      rw [hmost, ok_bind]
      split at hclose
      · obtain ⟨last', rfl, hlast⟩ := hrest.of_cons
        split at hclose
        · next hle =>
          obtain ⟨end', hquantified, hend⟩ :=
            steady_quantified least (some most) (hlast.skipBlanks extended) hclose
          exact ⟨end', (if_pos hle).trans hquantified, hend⟩
        · cases hclose
      · cases hclose
  · cases hbehind

/-! ## Groups -/

theorem readFlags_closed (negated dangling : Bool) (changes : List FlagChange) {cs cs' : List Char}
    (h : Closed cs cs') {found : List FlagChange} {stop : Char} {rest : List Char}
    (hok : readFlags negated dangling changes cs = .ok (found, stop, rest)) :
    ∃ rest', readFlags negated dangling changes cs' = .ok (found, stop, rest') ∧
      Closed rest rest' := by
  fun_induction readFlags negated dangling changes cs generalizing cs'
  all_goals try (cases hok; done)
  case case3 hstop hdangling =>
    obtain ⟨behind', rfl, hbehind⟩ := h.of_cons
    cases hok
    exact ⟨behind', by rw [readFlags, if_pos hstop, if_neg hdangling], hbehind⟩
  case case5 hnegated hstop ih =>
    obtain ⟨behind', rfl, hbehind⟩ := h.of_cons
    rw [readFlags, if_neg hstop, if_pos rfl, if_neg hnegated]
    exact ih hbehind hok
  case case9 hstop hhyphen flag hflag hrepeated hunicode ih =>
    obtain ⟨behind', rfl, hbehind⟩ := h.of_cons
    rw [readFlags, if_neg hstop, if_neg hhyphen, hflag]
    dsimp only
    rw [if_neg hrepeated, if_neg hunicode]
    exact ih hbehind hok

theorem steady_readGroupName : Steady readGroupName := by
  intro cs cs' token rest h hok
  unfold readGroupName at hok
  dsimp only at hok
  split at hok
  · next first others c behind hname hdrop =>
    obtain ⟨htake', behind', hdrop', hbehind⟩ := h.takeWhile hdrop
    split at hok
    · next hchars =>
      cases hok
      refine ⟨behind', ?_, hbehind⟩
      unfold readGroupName
      dsimp only
      rw [htake', hdrop', hname]
      exact if_pos hchars
    · cases hok
  · cases hok

/-! The four forms in which a group can begin. -/

section
variable {extended : Bool} {cs rest : List Char}

theorem readGroup_of_no_mark (h : ∀ rest, skipBlanks extended cs ≠ '?' :: rest) :
    readGroup extended cs = .ok (.openGroup [] none, skipBlanks extended cs) := by
  unfold readGroup
  split
  case h_8 => rfl
  all_goals
    next hmark => exact absurd hmark (h _)

theorem readGroup_of_letter (h : skipBlanks extended cs = '?' :: 'P' :: '<' :: rest) :
    readGroup extended cs = readGroupName rest := by
  unfold readGroup
  rw [h]
  rfl

theorem readGroup_of_angle (h : skipBlanks extended cs = '?' :: '<' :: rest)
    (heq : ∀ behind, rest ≠ '=' :: behind) (hbang : ∀ behind, rest ≠ '!' :: behind) :
    readGroup extended cs = readGroupName rest := by
  unfold readGroup
  rw [h]
  split
  case h_6 hfront =>
    cases hfront
    rfl
  case h_7 hangle hfront =>
    cases hfront
    exact absurd rfl (hangle _)
  all_goals simp_all

theorem readGroup_of_flags (h : skipBlanks extended cs = '?' :: rest)
    (heq : ∀ behind, rest ≠ '=' :: behind) (hbang : ∀ behind, rest ≠ '!' :: behind)
    (hletter : ∀ behind, rest ≠ 'P' :: '<' :: behind) (hangle : ∀ behind, rest ≠ '<' :: behind) :
    readGroup extended cs = readFlags false false [] rest >>= fun read =>
      if read.2.1 = ':' then .ok (.openGroup read.1 none, read.2.2)
      else if read.1.isEmpty then .error .noFlags
      else .ok (.setFlags read.1, read.2.2) := by
  unfold readGroup
  rw [h]
  split
  case h_7 hfront =>
    cases hfront
    rfl
  all_goals simp_all

end

theorem steady_readGroup (extended : Bool) : Steady (readGroup extended) := by
  intro cs cs' token rest h hok
  have hskip := h.skipBlanks extended
  unfold readGroup at hok
  split at hok
  case h_5 hfront =>
    rw [hfront] at hskip
    obtain ⟨_, hmark', hmark⟩ := hskip.of_cons
    obtain ⟨_, rfl, hletter⟩ := hmark.of_cons
    obtain ⟨_, rfl, hname⟩ := hletter.of_cons
    rw [readGroup_of_letter hmark']
    exact steady_readGroupName hname hok
  case h_6 heq hbang hfront =>
    rw [hfront] at hskip
    obtain ⟨_, hmark', hmark⟩ := hskip.of_cons
    obtain ⟨_, rfl, hname⟩ := hmark.of_cons
    rw [readGroup_of_angle hmark' (hname.ne_cons (by decide) heq) (hname.ne_cons (by decide) hbang)]
    exact steady_readGroupName hname hok
  case h_7 heq hbang _ _ hletter hangle hfront =>
    rw [hfront] at hskip
    obtain ⟨_, hmark', hflags⟩ := hskip.of_cons
    obtain ⟨⟨changes, stop, behind⟩, hread, hstop⟩ := bind_eq_ok.1 hok
    obtain ⟨behind', hread', hbehind⟩ := readFlags_closed false false [] hflags hread
    rw [readGroup_of_flags hmark' (hflags.ne_cons (by decide) heq)
      (hflags.ne_cons (by decide) hbang)
      (hflags.ne_cons_cons (by decide) (by decide) hletter)
      (hflags.ne_cons (by decide) hangle), hread', ok_bind]
    dsimp only at hstop ⊢
    by_cases hcolon : stop = ':'
    · rw [if_pos hcolon] at hstop ⊢
      exact steady_ok _ hbehind hstop
    rw [if_neg hcolon] at hstop ⊢
    by_cases hempty : changes.isEmpty = true
    · rw [if_pos hempty] at hstop
      cases hstop
    · rw [if_neg hempty] at hstop ⊢
      exact steady_ok _ hbehind hstop
  case h_8 hmark =>
    rw [readGroup_of_no_mark (hskip.ne_cons (by decide) hmark)]
    exact steady_ok _ hskip hok
  all_goals cases hok

/-! ## All tokens -/

theorem steady_next (extended : Bool) (c : Char) : Steady (next extended c) := by
  intro cs cs' token rest h hok
  unfold next at hok
  split at hok
  · exact steady_readGroup extended h hok
  · exact steady_ok _ h hok
  · exact steady_ok _ h hok
  · obtain ⟨rest', hopen', hrest⟩ := steady_openClass extended h rfl
    have hread' : openClass extended cs' = ((openClass extended cs).1, rest') :=
      Except.ok.inj hopen'
    dsimp only [next]
    rw [hread']
    exact (steady_readClass extended _ []).convert (fun s => .ok (Token.set s)) hrest hok
  · exact steady_quantified 0 (some 1) h hok
  · exact steady_quantified 0 none h hok
  · exact steady_quantified 1 none h hok
  · exact steady_readCounts extended h hok
  · exact Escape.steady_read.convert (fun e => .ok (ofEscape e)) h hok
  · exact steady_ok _ h hok
  · exact steady_ok _ h hok
  · exact steady_ok _ h hok
  · cases hok
    refine ⟨cs', ?_, h⟩
    rw [next]
    all_goals assumption

/-! ## The whole of a text -/

theorem skipBlanks_nil (extended : Bool) : skipBlanks extended [] = [] :=
  List.length_eq_zero_iff.1 (Nat.le_zero.1 (length_skipBlanks_le extended []))

section
variable {scope : Scope} {cs behind rest : List Char} {c : Char} {token : Token}

theorem scan_of_skipped (h : skipBlanks scope.here cs = []) : scan scope cs = .ok [] := by
  rw [scan, h]

theorem scan_of_next (h : skipBlanks scope.here cs = c :: behind)
    (hnext : next scope.here c behind = .ok (token, rest)) (hshorter : rest.length < cs.length) :
    scan scope cs = scan (scope.after token) rest >>= fun tokens => .ok (token :: tokens) := by
  rw [scan, h]
  dsimp only
  rw [hnext, ok_bind]
  exact if_pos hshorter

/-- What a scan that succeeds has begun with. -/
theorem scan_ok {tokens : List Token} (h : scan scope cs = .ok tokens) :
    (skipBlanks scope.here cs = [] ∧ tokens = []) ∨
      ∃ c behind token rest others, skipBlanks scope.here cs = c :: behind ∧
        next scope.here c behind = .ok (token, rest) ∧ rest.length < cs.length ∧
        scan (scope.after token) rest = .ok others ∧ tokens = token :: others := by
  rw [scan] at h
  split at h
  · next hskip =>
    cases h
    exact .inl ⟨hskip, rfl⟩
  · next c behind hskip =>
    obtain ⟨⟨token, rest⟩, hnext, h⟩ := bind_eq_ok.1 h
    dsimp only at h
    split at h
    · next hshorter =>
      obtain ⟨others, hothers, htokens⟩ := bind_eq_ok.1 h
      cases htokens
      exact .inr ⟨c, behind, token, rest, others, hskip, hnext, hshorter, hothers, rfl⟩
    · cases h

end

end Token

end Descent.Regex
