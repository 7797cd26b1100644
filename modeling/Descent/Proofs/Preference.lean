import Descent.Proofs.Lexeme
import Descent.Proofs.Ways

/-!
# What a pattern prefers

Of the matches at a place a pattern takes the one that it prefers, and goes back to another one where
that leads nowhere. This module says for each construct what it settles for, so that the outcome of a
pattern can be told without following its search.

* `Matcher.Reads m word rest` : in front of `rest` the matcher `m` settles for `word`, if what has to
  follow can go on from there;
* `Matcher.Fails m cs` : `m` finds nothing at the front of `cs`, whatever has to follow;
* `Pattern.parser_of_reads`, `Pattern.parser_of_fails` : what becomes of a pattern at a cursor.
-/

namespace Descent

namespace Regex

/-! ## What a matcher prefers -/

namespace Matcher

def Reads (m : Matcher) (word rest : List Char) : Prop :=
  ∀ (before : Option Char) (k : Place → Option Place), (∀ b, (k ⟨b, rest⟩).isSome) →
    ∃ b, m ⟨before, word ++ rest⟩ k = k ⟨b, rest⟩

def Fails (m : Matcher) (cs : List Char) : Prop :=
  ∀ (before : Option Char) (k : Place → Option Place), m ⟨before, cs⟩ k = none

variable {m n : Matcher} {holds : Char → Bool} {word word' rest cs : List Char}

theorem Reads.isSome (h : Reads m word rest) (before : Option Char) {k : Place → Option Place}
    (hk : ∀ b, (k ⟨b, rest⟩).isSome) : (m ⟨before, word ++ rest⟩ k).isSome := by
  obtain ⟨b, hb⟩ := h before k hk
  rw [hb]
  exact hk b

theorem reads_character {c : Char} (h : holds c = true) (rest : List Char) :
    Reads (character holds) [c] rest :=
  fun _ _ _ => ⟨some c, by simp [character, h]⟩

theorem fails_character (h : Stops holds cs) : Fails (character holds) cs := by
  intro before k
  cases cs with
  | nil => rfl
  | cons c cs => simp [character, stops_cons.1 h]

theorem Reads.seq (hm : Reads m word (word' ++ rest)) (hn : Reads n word' rest) :
    Reads (seq m n) (word ++ word') rest := by
  intro before k hk
  obtain ⟨b, hb⟩ := hm before (fun q => n q k) fun b => hn.isSome b hk
  obtain ⟨b', hb'⟩ := hn b k hk
  refine ⟨b', ?_⟩
  rw [List.append_assoc]
  exact hb.trans hb'

theorem Fails.seq (h : Fails m cs) : Fails (seq m n) cs := fun before _ => h before _

/-! ## Repetitions that prefer more rounds -/

/-- One more round is made if it can be. -/
theorem rounds_optional (m : Matcher) (p : Place) (k : Place → Option Place) :
    rounds true m 0 (some 1) p k = (m p k).orElse fun _ => k p := rfl

theorem Reads.optional (h : Reads m word rest) : Reads (rounds true m 0 (some 1)) word rest := by
  intro before k hk
  obtain ⟨b, hb⟩ := h before k hk
  obtain ⟨q, hq⟩ := Option.isSome_iff_exists.1 (hk b)
  refine ⟨b, ?_⟩
  rw [rounds_optional, hb, hq]
  rfl

theorem Fails.reads_optional (h : Fails m rest) : Reads (rounds true m 0 (some 1)) [] rest := by
  intro before k _
  refine ⟨before, ?_⟩
  rw [rounds_optional, List.nil_append, h]
  rfl

/-- Neither with the optional part nor without it is there a way on. -/
theorem fails_optional_character_seq (h : Fails n cs)
    (hstep : ∀ c rest, cs = c :: rest → holds c = true → Fails n rest) :
    Fails (seq (rounds true (character holds) 0 (some 1)) n) cs := by
  intro before k
  have hskip : n ⟨before, cs⟩ k = none := h before k
  have htake : character holds ⟨before, cs⟩ (fun q => n q k) = none := by
    cases cs with
    | nil => rfl
    | cons c rest =>
      simp only [character]
      split
      · next hc => exact hstep c rest rfl hc (some c) k
      · rfl
  show (character holds ⟨before, cs⟩ fun q => n q k).orElse (fun _ => n ⟨before, cs⟩ k) = none
  rw [htake, hskip]
  rfl

theorem plus_of_stops {before : Option Char} (h : Stops holds cs) (k : Place → Option Place) :
    plus true (character holds) ⟨before, cs⟩ k = none := by
  rw [plus]
  exact fails_character h before _

theorem plus_of_holds {before : Option Char} {c : Char} (h : holds c = true)
    (k : Place → Option Place) :
    plus true (character holds) ⟨before, c :: cs⟩ k =
      (plus true (character holds) ⟨some c, cs⟩ k).orElse fun _ => k ⟨some c, cs⟩ := by
  rw [plus]
  simp [character, h, prefer]

theorem fails_plus (h : Stops holds cs) : Fails (rounds true (character holds) 1 none) cs :=
  fun _ => plus_of_stops h

/-- A class is repeated as far as its characters go. -/
theorem reads_star (hword : ∀ c ∈ word, holds c = true) (hrest : Stops holds rest) :
    Reads (rounds true (character holds) 0 none) word rest := by
  intro before k hk
  induction word generalizing before with
  | nil =>
    refine ⟨before, ?_⟩
    simp only [rounds, prefer, if_true, List.nil_append, plus_of_stops hrest]
    rfl
  | cons c word ih =>
    obtain ⟨hc, hword⟩ := List.forall_mem_cons.1 hword
    obtain ⟨b, hb⟩ := ih hword (some c)
    obtain ⟨q, hq⟩ := Option.isSome_iff_exists.1 (hk b)
    simp only [rounds, prefer, if_true, hq] at hb
    refine ⟨b, ?_⟩
    simp only [rounds, prefer, if_true, List.cons_append, plus_of_holds hc, hb, hq]
    rfl

theorem reads_plus (hne : word ≠ []) (hword : ∀ c ∈ word, holds c = true)
    (hrest : Stops holds rest) : Reads (rounds true (character holds) 1 none) word rest := by
  obtain ⟨c, word, rfl⟩ := List.exists_cons_of_ne_nil hne
  obtain ⟨hc, hword⟩ := List.forall_mem_cons.1 hword
  intro before k hk
  obtain ⟨b, hb⟩ := reads_star hword hrest (some c) k hk
  exact ⟨b, (plus_of_holds hc k).trans hb⟩

end Matcher

/-! ## Anchored patterns -/

theorem eq_ok_of_toOption {x : Except Fault Regex} {r : Regex} (h : x.toOption = some r) :
    x = .ok r := by
  cases x with
  | error f => cases h
  | ok r' =>
    cases h
    rfl

/-- What an anchored source is read as. -/
def atTextStart (r : Regex) : Regex := .seq (.anchor .textStart) (.seq r .empty)

theorem matchAt_atTextStart (r : Regex) (cs : List Char) :
    (atTextStart r).matchAt ⟨none, cs⟩ = r.matchAt ⟨none, cs⟩ := rfl

variable {r : Regex} {word rest cs : List Char}

theorem matchAt_of_reads (h : Matcher.Reads r.matcher word rest) (before : Option Char) :
    r.matchAt ⟨before, word ++ rest⟩ = some word := by
  obtain ⟨b, hb⟩ := h before some fun _ => rfl
  rw [matchAt, hb, Option.map_some, List.length_append, Nat.add_sub_cancel, List.take_left]

theorem matchAt_of_fails (h : Matcher.Fails r.matcher cs) (before : Option Char) :
    r.matchAt ⟨before, cs⟩ = none := by
  rw [matchAt, h before some, Option.map_none]

end Regex

namespace Pattern

variable {r : Regex} {p : Pattern} {word rest : List Char} {c : Cursor}

theorem parser_of_regex (hp : p.regex = .ok r) (c : Cursor) :
    p.parser c = .silent (c.matchPattern r p.label) := by
  rw [parser, hp]

theorem matchPattern_atTextStart (r : Regex) (label : String) (c : Cursor) :
    c.matchPattern (Regex.atTextStart r) label = c.matchPattern r label := by
  cases hat : r.matchAt ⟨none, c.ahead⟩ with
  | none =>
    rw [Cursor.matchPattern_of_matchAt_eq_none hat, Cursor.matchPattern_of_matchAt_eq_none]
    rw [Regex.matchAt_atTextStart, hat]
  | some text =>
    rw [Cursor.matchPattern_of_matchAt hat, Cursor.matchPattern_of_matchAt]
    rw [Regex.matchAt_atTextStart, hat]

theorem parser_of_reads (hp : p.regex.toOption = some (Regex.atTextStart r))
    (hc : c.ahead = word ++ rest) (h : Regex.Matcher.Reads r.matcher word rest) :
    p.parser c = .succeed (String.ofList word) (c.forward word.length) := by
  have hat : r.matchAt ⟨none, c.ahead⟩ = some word := by
    rw [hc, Regex.matchAt_of_reads h]
  rw [parser_of_regex (Regex.eq_ok_of_toOption hp), matchPattern_atTextStart,
    Cursor.matchPattern_of_matchAt hat]
  rfl

theorem parser_of_fails (hp : p.regex.toOption = some (Regex.atTextStart r))
    (h : Regex.Matcher.Fails r.matcher c.ahead) :
    p.parser c = .fail { expected := p.label, position := c.position } := by
  rw [parser_of_regex (Regex.eq_ok_of_toOption hp), matchPattern_atTextStart,
    Cursor.matchPattern_of_matchAt_eq_none (Regex.matchAt_of_fails h none)]
  rfl

end Pattern

/-! ## Bracketed sets -/

namespace Regex.CharSet

/-- What a bracketed set of ranges is read as. -/
def bracketed (ranges : List (Char × Char)) : CharSet :=
  ranges.foldl (fun s range => .union s (.within [range])) (.within [])

theorem holds_bracketed (ranges : List (Char × Char)) :
    (bracketed ranges).holds false = inSome ranges := by
  have hfold : ∀ (s : CharSet) (ch : Char),
      (ranges.foldl (fun s range => .union s (.within [range])) s).holds false ch =
        (s.holds false ch || inSome ranges ch) := by
    induction ranges with
    | nil => simp [inSome]
    | cons range ranges ih =>
      intro s ch
      rw [List.foldl_cons, ih]
      simp [holds, standIns, inSome, Bool.or_assoc]
  funext ch
  exact hfold _ ch

theorem single_range (a ch : Char) : (a ≤ ch && ch ≤ a) = decide (ch = a) := by
  rw [← Bool.decide_and, decide_eq_decide]
  exact ⟨fun h => Char.le_antisymm h.2 h.1, fun h => h ▸ ⟨Char.le_refl _, Char.le_refl _⟩⟩

theorem holds_single {a ch : Char} : (single a).holds false ch = true ↔ ch = a := by
  simp only [single, holds, standIns, inSome, Bool.false_eq_true, if_false, List.any_cons,
    List.any_nil, Bool.or_false, single_range, decide_eq_true_eq]

end Regex.CharSet

end Descent
