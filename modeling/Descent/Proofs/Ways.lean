import Descent.Pattern
import Mathlib.Data.List.Basic

/-!
# All matches at a place

A matcher searches with a continuation, and what it would find next is not to be seen from outside.
Here the search is laid open. To a place belongs the list of all places at which a match from there
can end, those preferred first, and what a matcher finds is the first of them that its continuation
accepts.

* `Regex.Matches r p q` : what lies between the places `p` and `q` is a match of `r`;
* `Regex.ends r p` : the ends of the matches from `p`, in order of preference;
* `mem_ends` : they are the ends of all matches;
* `matcher_eq_findSome?` : a matcher goes through them in this order;
* `find_eq_some_iff` : a search goes through the places of a text in theirs.
-/

namespace Descent

namespace Regex

/-! ## Matches -/

/-- As many steps, one after the other. -/
def Steps (step : Place → Place → Prop) : Nat → Place → Place → Prop
  | 0, p, q => p = q
  | n + 1, p, q => ∃ mid, step p mid ∧ Steps step n mid q

/-- An upper limit below the lower one counts as the lower one. -/
def Matches : Regex → Place → Place → Prop
  | .empty, p, q => p = q
  | .set ignoreCase s, p, q =>
    ∃ c, p.ahead = c :: q.ahead ∧ q.before = some c ∧ s.holds ignoreCase c = true
  | .anchor a, p, q => p = q ∧ a.holds p = true
  | .seq r s, p, q => ∃ mid, r.Matches p mid ∧ s.Matches mid q
  | .alt r s, p, q => r.Matches p q ∨ s.Matches p q
  | .rounds r least most _, p, q =>
    ∃ n, least ≤ n ∧ (∀ m ∈ most, n ≤ max least m) ∧ Steps r.Matches n p q

section
variable {step : Place → Place → Prop} {p q : Place}

theorem steps_add (m n : Nat) :
    Steps step (m + n) p q ↔ ∃ mid, Steps step m p mid ∧ Steps step n mid q := by
  induction m generalizing p with
  | zero => simp [Steps]
  | succ m ih =>
    rw [Nat.succ_add]
    simp only [Steps, ih]
    constructor
    · rintro ⟨mid, hstep, last, hm, hn⟩
      exact ⟨last, ⟨mid, hstep, hm⟩, hn⟩
    · rintro ⟨last, ⟨mid, hstep, hm⟩, hn⟩
      exact ⟨mid, hstep, last, hm, hn⟩

end

/-! ### What a match leaves ahead -/

/-- `q` is `p`, or a place further on in the same text. -/
def Place.Onward (p q : Place) : Prop :=
  p = q ∨ ∃ word, word ≠ [] ∧ p.ahead = word ++ q.ahead

section
variable {p q mid : Place}

theorem Place.Onward.trans (h : p.Onward mid) (h' : mid.Onward q) : p.Onward q := by
  rcases h with rfl | ⟨word, hne, hword⟩
  · exact h'
  · rcases h' with rfl | ⟨word', -, hword'⟩
    · exact .inr ⟨word, hne, hword⟩
    · refine .inr ⟨word ++ word', fun h => hne (List.append_eq_nil_iff.1 h).1, ?_⟩
      rw [hword, hword', List.append_assoc]

theorem Place.Onward.eq_of_length_le (h : p.Onward q) (hlength : p.ahead.length ≤ q.ahead.length) :
    p = q := by
  rcases h with rfl | ⟨word, hne, hword⟩
  · rfl
  · have := List.length_pos_of_ne_nil hne
    rw [hword, List.length_append] at hlength
    omega

theorem Place.Onward.exists_append (h : p.Onward q) : ∃ word, p.ahead = word ++ q.ahead := by
  rcases h with rfl | ⟨word, -, hword⟩
  · exact ⟨[], rfl⟩
  · exact ⟨word, hword⟩

theorem Steps.onward {step : Place → Place → Prop} (hstep : ∀ p q, step p q → p.Onward q) {n : Nat}
    (h : Steps step n p q) : p.Onward q := by
  induction n generalizing p with
  | zero => exact .inl h
  | succ n ih =>
    obtain ⟨mid, hfirst, hrest⟩ := h
    exact (hstep _ _ hfirst).trans (ih hrest)

theorem Matches.onward {r : Regex} (h : r.Matches p q) : p.Onward q := by
  induction r generalizing p q with
  | empty => exact .inl h
  | set ignoreCase s =>
    obtain ⟨c, hahead, -, -⟩ := h
    exact .inr ⟨[c], List.cons_ne_nil _ _, hahead⟩
  | anchor a => exact .inl h.1
  | seq r s ihr ihs =>
    obtain ⟨mid, hr, hs⟩ := h
    exact (ihr hr).trans (ihs hs)
  | alt r s ihr ihs =>
    rcases h with hr | hs
    · exact ihr hr
    · exact ihs hs
  | rounds r least most greedy ih =>
    obtain ⟨n, -, -, hsteps⟩ := h
    exact hsteps.onward fun _ _ => ih

end

/-! ## The order of preference -/

/-- From a place, the ends of the matches, those preferred first. -/
abbrev Ways := Place → List Place

namespace Ways

def nothing : Ways := fun p => [p]

def character (holds : Char → Bool) : Ways := fun p =>
  match p.ahead with
  | c :: cs => if holds c then [{ before := some c, ahead := cs }] else []
  | [] => []

def condition (holds : Place → Bool) : Ways := fun p => if holds p then [p] else []

def seq (v w : Ways) : Ways := fun p => (v p).flatMap w

def alt (v w : Ways) : Ways := fun p => v p ++ w p

/-- More rounds before fewer, or fewer before more. -/
def arrange (greedy : Bool) (more fewer : List Place) : List Place :=
  if greedy then more ++ fewer else fewer ++ more

def times (w : Ways) : Nat → Ways
  | 0 => nothing
  | n + 1 => seq w (times w n)

def upTo (greedy : Bool) (w : Ways) : Nat → Ways
  | 0 => nothing
  | n + 1 => fun p => arrange greedy ((w p).flatMap (upTo greedy w n)) [p]

def plus (greedy : Bool) (w : Ways) (p : Place) : List Place :=
  (w p).flatMap fun q =>
    if q.ahead.length < p.ahead.length then arrange greedy (plus greedy w q) [q] else [q]
termination_by p.ahead.length

def rounds (greedy : Bool) (w : Ways) (least : Nat) : Option Nat → Ways
  | some most => seq (times w least) (upTo greedy w (most - least))
  | none =>
    match least with
    | 0 => fun p => arrange greedy (plus greedy w p) [p]
    | n + 1 => seq (times w n) (plus greedy w)

end Ways

def ends : Regex → Ways
  | .empty => .nothing
  | .set ignoreCase s => .character (s.holds ignoreCase)
  | .anchor a => .condition a.holds
  | .seq r s => .seq r.ends s.ends
  | .alt r s => .alt r.ends s.ends
  | .rounds r least most greedy => .rounds greedy r.ends least most

/-! ### The ends of all matches -/

namespace Ways

variable {w : Ways} {step : Place → Place → Prop} {greedy : Bool} {p q : Place}

theorem mem_arrange {more fewer : List Place} :
    q ∈ arrange greedy more fewer ↔ q ∈ more ∨ q ∈ fewer := by
  unfold arrange
  split
  · exact List.mem_append
  · exact List.mem_append.trans or_comm

theorem mem_nothing : q ∈ nothing p ↔ p = q := by
  rw [nothing, List.mem_singleton, eq_comm]

theorem mem_character {holds : Char → Bool} :
    q ∈ character holds p ↔ ∃ c, p.ahead = c :: q.ahead ∧ q.before = some c ∧ holds c = true := by
  obtain ⟨before, ahead⟩ := p
  obtain ⟨before', ahead'⟩ := q
  unfold character
  cases ahead with
  | nil => simp
  | cons c cs =>
    simp only [List.cons.injEq]
    constructor
    · intro h
      split at h
      · next hc =>
        obtain ⟨rfl, rfl⟩ := Place.mk.inj (List.mem_singleton.1 h)
        exact ⟨c, ⟨rfl, rfl⟩, rfl, hc⟩
      · cases h
    · rintro ⟨_, ⟨rfl, rfl⟩, rfl, hc⟩
      rw [if_pos hc]
      exact List.mem_singleton_self _

theorem mem_condition {holds : Place → Bool} :
    q ∈ condition holds p ↔ p = q ∧ holds p = true := by
  unfold condition
  split <;> simp [*, eq_comm]

section
variable (hw : ∀ p q, q ∈ w p ↔ step p q)
include hw

theorem mem_times (n : Nat) : q ∈ times w n p ↔ Steps step n p q := by
  induction n generalizing p with
  | zero => exact mem_nothing
  | succ n ih => simp only [times, seq, List.mem_flatMap, hw, ih, Steps]

theorem mem_upTo (n : Nat) : q ∈ upTo greedy w n p ↔ ∃ m ≤ n, Steps step m p q := by
  induction n generalizing p with
  | zero => simp [upTo, mem_nothing, Steps]
  | succ n ih =>
    simp only [upTo, mem_arrange, List.mem_flatMap, hw, ih, List.mem_singleton]
    constructor
    · rintro (⟨mid, hstep, m, hm, hsteps⟩ | rfl)
      · exact ⟨m + 1, by omega, mid, hstep, hsteps⟩
      · exact ⟨0, by omega, rfl⟩
    · rintro ⟨m | m, hm, hsteps⟩
      · exact .inr hsteps.symm
      · obtain ⟨mid, hstep, hsteps⟩ := hsteps
        exact .inl ⟨mid, hstep, m, by omega, hsteps⟩

theorem steps_of_mem_plus (h : q ∈ plus greedy w p) : ∃ n, Steps step (n + 1) p q := by
  induction hlength : p.ahead.length using Nat.strongRecOn generalizing p with
  | ind length ih =>
    rw [plus, List.mem_flatMap] at h
    obtain ⟨mid, hmid, h⟩ := h
    have hstep : step p mid := (hw p mid).1 hmid
    split at h
    · next hshorter =>
      rcases mem_arrange.1 h with h | h
      · obtain ⟨n, hsteps⟩ := ih _ (by omega) h rfl
        exact ⟨n + 1, mid, hstep, hsteps⟩
      · exact ⟨0, mid, hstep, (List.mem_singleton.1 h).symm⟩
    · exact ⟨0, mid, hstep, (List.mem_singleton.1 h).symm⟩

/-- A round that consumes nothing leads nowhere, so it can be left out where others are made. -/
theorem mem_plus_of_steps (honward : ∀ p q, step p q → p.Onward q) {n : Nat}
    (h : Steps step (n + 1) p q) : q ∈ plus greedy w p := by
  induction n generalizing p with
  | zero =>
    obtain ⟨_, hstep, rfl⟩ := h
    rw [plus, List.mem_flatMap]
    refine ⟨_, (hw _ _).2 hstep, ?_⟩
    split
    · exact mem_arrange.2 (.inr (List.mem_singleton_self _))
    · exact List.mem_singleton_self _
  | succ n ih =>
    obtain ⟨mid, hstep, hsteps⟩ := h
    have hmid : q ∈ plus greedy w mid := ih hsteps
    by_cases hshorter : mid.ahead.length < p.ahead.length
    · rw [plus, List.mem_flatMap]
      refine ⟨mid, (hw _ _).2 hstep, ?_⟩
      rw [if_pos hshorter]
      exact mem_arrange.2 (.inl hmid)
    · rw [(honward _ _ hstep).eq_of_length_le (Nat.not_lt.1 hshorter)]
      exact hmid

theorem mem_plus (honward : ∀ p q, step p q → p.Onward q) :
    q ∈ plus greedy w p ↔ ∃ n, Steps step (n + 1) p q :=
  ⟨steps_of_mem_plus hw, fun ⟨_, h⟩ => mem_plus_of_steps hw honward h⟩

theorem mem_rounds (honward : ∀ p q, step p q → p.Onward q) (least : Nat) (most : Option Nat) :
    q ∈ rounds greedy w least most p ↔
      ∃ n, least ≤ n ∧ (∀ m ∈ most, n ≤ max least m) ∧ Steps step n p q := by
  cases most with
  | some most =>
    simp only [rounds, seq, List.mem_flatMap, mem_times hw, mem_upTo hw, Option.mem_some_iff,
      forall_eq']
    constructor
    · rintro ⟨mid, hleast, m, hm, hmore⟩
      exact ⟨least + m, by omega, by omega, (steps_add least m).2 ⟨mid, hleast, hmore⟩⟩
    · rintro ⟨n, hn, hmost, hsteps⟩
      rw [← Nat.add_sub_of_le hn, steps_add] at hsteps
      obtain ⟨mid, hleast, hmore⟩ := hsteps
      exact ⟨mid, hleast, n - least, by omega, hmore⟩
  | none =>
    simp only [Option.mem_def, reduceCtorEq, false_implies, implies_true, true_and]
    cases least with
    | zero =>
      simp only [rounds, mem_arrange, mem_plus hw honward, List.mem_singleton, Nat.zero_le, true_and]
      constructor
      · rintro (⟨n, hsteps⟩ | rfl)
        · exact ⟨n + 1, hsteps⟩
        · exact ⟨0, rfl⟩
      · rintro ⟨n | n, hsteps⟩
        · exact .inr hsteps.symm
        · exact .inl ⟨n, hsteps⟩
    | succ least =>
      simp only [rounds, seq, List.mem_flatMap, mem_times hw, mem_plus hw honward]
      constructor
      · rintro ⟨mid, hleast, n, hmore⟩
        exact ⟨least + (n + 1), by omega, (steps_add _ _).2 ⟨mid, hleast, hmore⟩⟩
      · rintro ⟨n, hn, hsteps⟩
        obtain ⟨m, rfl⟩ := Nat.exists_eq_add_of_le hn
        rw [Nat.add_assoc, Nat.add_comm 1 m, steps_add] at hsteps
        obtain ⟨mid, hleast, hmore⟩ := hsteps
        exact ⟨mid, hleast, m, hmore⟩

end

end Ways

theorem mem_ends {r : Regex} {p q : Place} : q ∈ r.ends p ↔ r.Matches p q := by
  induction r generalizing p q with
  | empty => exact Ways.mem_nothing
  | set ignoreCase s => exact Ways.mem_character
  | anchor a => exact Ways.mem_condition
  | seq r s ihr ihs => simp only [ends, Ways.seq, List.mem_flatMap, ihr, ihs, Matches]
  | alt r s ihr ihs => simp only [ends, Ways.alt, List.mem_append, ihr, ihs, Matches]
  | rounds r least most greedy ih =>
    exact Ways.mem_rounds (fun _ _ => ih) (fun _ _ => Matches.onward) least most

/-! ## What a matcher finds -/

namespace Matcher

/-- The matcher finds the first end that its continuation accepts. -/
def Tries (m : Matcher) (w : Ways) : Prop :=
  ∀ (p : Place) (k : Place → Option Place), m p k = (w p).findSome? k

variable {m n : Matcher} {v w : Ways}

theorem findSome?_flatMap (l : List Place) (w : Ways) (k : Place → Option Place) :
    (l.flatMap w).findSome? k = l.findSome? fun q => (w q).findSome? k := by
  induction l with
  | nil => rfl
  | cons q l ih =>
    rw [List.flatMap_cons, List.findSome?_append, ih, List.findSome?_cons]
    cases (w q).findSome? k <;> rfl

theorem prefer_eq (greedy : Bool) (more fewer : List Place) (k : Place → Option Place) :
    prefer greedy (fun _ => more.findSome? k) (fun _ => fewer.findSome? k) =
      (Ways.arrange greedy more fewer).findSome? k := by
  cases greedy <;> simp [prefer, Ways.arrange, List.findSome?_append]

theorem findSome?_singleton (p : Place) (k : Place → Option Place) : [p].findSome? k = k p := by
  rw [List.findSome?_cons]
  cases k p <;> rfl

theorem tries_nothing : Tries nothing .nothing := fun p k => (findSome?_singleton p k).symm

theorem tries_character (holds : Char → Bool) : Tries (character holds) (.character holds) := by
  rintro ⟨before, ahead⟩ k
  cases ahead with
  | nil => rfl
  | cons c cs =>
    simp only [character, Ways.character]
    split
    · exact (findSome?_singleton _ k).symm
    · rfl

theorem tries_condition (holds : Place → Bool) : Tries (condition holds) (.condition holds) := by
  intro p k
  simp only [condition, Ways.condition]
  split
  · exact (findSome?_singleton p k).symm
  · rfl

theorem Tries.seq (hm : Tries m v) (hn : Tries n w) : Tries (seq m n) (.seq v w) := by
  intro p k
  rw [Matcher.seq, hm, Ways.seq, findSome?_flatMap]
  exact congrArg (List.findSome? · (v p)) (funext fun q => hn q k)

theorem Tries.alt (hm : Tries m v) (hn : Tries n w) : Tries (alt m n) (.alt v w) := by
  intro p k
  rw [Matcher.alt, hm, hn]
  exact prefer_eq true (v p) (w p) k

theorem Tries.times (hm : Tries m v) (n : Nat) : Tries (times m n) (.times v n) := by
  induction n with
  | zero => exact tries_nothing
  | succ n ih => exact hm.seq ih

/-- With more rounds or without them. -/
theorem prefer_of_tries (greedy : Bool) {more : Option Place} {ways : List Place} {p : Place}
    {k : Place → Option Place} (h : more = ways.findSome? k) :
    prefer greedy (fun _ => more) (fun _ => k p) = (Ways.arrange greedy ways [p]).findSome? k := by
  rw [h, ← prefer_eq, findSome?_singleton]

theorem Tries.upTo (hm : Tries m v) (greedy : Bool) (n : Nat) :
    Tries (upTo greedy m n) (.upTo greedy v n) := by
  induction n with
  | zero => exact tries_nothing
  | succ n ih => exact fun p k => prefer_of_tries greedy (hm.seq ih p k)

theorem Tries.plus (hm : Tries m v) (greedy : Bool) : Tries (plus greedy m) (.plus greedy v) := by
  intro p k
  induction hlength : p.ahead.length using Nat.strongRecOn generalizing p with
  | ind length ih =>
    rw [Matcher.plus, Ways.plus, hm, findSome?_flatMap]
    refine congrArg (List.findSome? · (v p)) (funext fun q => ?_)
    split
    · next hshorter => exact prefer_of_tries greedy (ih _ (by omega) q rfl)
    · exact (findSome?_singleton q k).symm

theorem Tries.rounds (hm : Tries m v) (greedy : Bool) (least : Nat) (most : Option Nat) :
    Tries (rounds greedy m least most) (.rounds greedy v least most) := by
  cases most with
  | some most => exact (hm.times least).seq (hm.upTo greedy _)
  | none =>
    cases least with
    | zero => exact fun p k => prefer_of_tries greedy (hm.plus greedy p k)
    | succ least => exact (hm.times least).seq (hm.plus greedy)

end Matcher

theorem matcher_eq_findSome? (r : Regex) (p : Place) (k : Place → Option Place) :
    r.matcher p k = (r.ends p).findSome? k := by
  have htries : r.matcher.Tries r.ends := by
    induction r with
    | empty => exact Matcher.tries_nothing
    | set ignoreCase s => exact Matcher.tries_character _
    | anchor a => exact Matcher.tries_condition _
    | seq r s ihr ihs => exact ihr.seq ihs
    | alt r s ihr ihs => exact ihr.alt ihs
    | rounds r least most greedy ih => exact ih.rounds greedy least most
  exact htries p k

/-- The match at a place is the one that ends at the first of the ends. -/
theorem matchAt_eq_some_iff {r : Regex} {p : Place} {text : List Char} :
    r.matchAt p = some text ↔ ∃ q, (r.ends p).head? = some q ∧ p.ahead = text ++ q.ahead := by
  have hfound : r.matcher p some = (r.ends p).head? := by
    rw [matcher_eq_findSome?]
    cases r.ends p <;> rfl
  rw [matchAt, hfound, Option.map_eq_some_iff]
  refine exists_congr fun q => and_congr_right fun hq => ?_
  obtain ⟨word, hword⟩ := (mem_ends.1 (List.mem_of_mem_head? hq)).onward.exists_append
  rw [hword, List.length_append, Nat.add_sub_cancel, List.take_left, List.append_cancel_right_eq]

theorem matchAt_eq_none_iff {r : Regex} {p : Place} :
    r.matchAt p = none ↔ ∀ q, ¬ r.Matches p q := by
  have hends : r.matchAt p = none ↔ r.ends p = [] := by
    rw [matchAt, matcher_eq_findSome?]
    cases r.ends p <;> simp
  rw [hends, List.eq_nil_iff_forall_not_mem]
  simp only [mem_ends]

/-! ## Searching -/

/-- So many characters further on, or at the end of the text. -/
def Place.skip (p : Place) : Nat → Place
  | 0 => p
  | n + 1 =>
    match p.ahead with
    | [] => p
    | c :: cs => Place.skip { before := some c, ahead := cs } n

/-- `m` starts `n` characters behind `p`, and no match starts before it. -/
def FirstBehind (r : Regex) (p : Place) (n : Nat) (m : Stretch) : Prop :=
  r.matchAt (p.skip n) = some m.text ∧ ∀ i < n, r.matchAt (p.skip i) = none

section
variable {r : Regex} {start : Nat} {before : Option Char} {cs text : List Char} {m : Stretch}

theorem FirstBehind.eq_zero {p : Place} {n : Nat} (h : FirstBehind r p n m)
    (hat : r.matchAt p = some text) : n = 0 := by
  by_contra hne
  have hnone : r.matchAt p = none := h.2 0 (Nat.pos_of_ne_zero hne)
  rw [hat] at hnone
  cases hnone

theorem findFrom_of_matchAt (hat : r.matchAt ⟨before, cs⟩ = some text) :
    r.findFrom start before cs = some m ↔
      ∃ n ≤ cs.length, m.start = start + n ∧ FirstBehind r ⟨before, cs⟩ n m := by
  rw [findFrom.eq_def, hat]
  constructor
  · intro h
    cases h
    exact ⟨0, Nat.zero_le _, rfl, hat, fun i hi => absurd hi (Nat.not_lt_zero i)⟩
  · rintro ⟨n, -, hstart, h⟩
    obtain rfl : n = 0 := h.eq_zero hat
    have htext : text = m.text := Option.some.inj (hat.symm.trans h.1)
    rw [htext, ← show m.start = start from hstart]

theorem firstBehind_cons {c : Char} {n : Nat} (hat : r.matchAt ⟨before, c :: cs⟩ = none) :
    FirstBehind r ⟨before, c :: cs⟩ (n + 1) m ↔ FirstBehind r ⟨some c, cs⟩ n m := by
  refine and_congr_right fun _ => ⟨fun h i hi => h (i + 1) (by omega), fun h i hi => ?_⟩
  cases i with
  | zero => exact hat
  | succ i => exact h i (by omega)

theorem findFrom_eq_some_iff :
    r.findFrom start before cs = some m ↔
      ∃ n ≤ cs.length, m.start = start + n ∧ FirstBehind r ⟨before, cs⟩ n m := by
  induction cs generalizing start before with
  | nil =>
    cases hat : r.matchAt ⟨before, []⟩ with
    | some text => exact findFrom_of_matchAt hat
    | none =>
      rw [findFrom, hat]
      constructor
      · intro h
        cases h
      · rintro ⟨n, hn, -, h, -⟩
        obtain rfl : n = 0 := Nat.le_zero.1 hn
        exact absurd (hat.symm.trans h) (by simp)
  | cons c cs ih =>
    cases hat : r.matchAt ⟨before, c :: cs⟩ with
    | some text => exact findFrom_of_matchAt hat
    | none =>
      rw [findFrom, hat]
      refine ih.trans ?_
      constructor
      · rintro ⟨n, hn, hstart, h⟩
        exact ⟨n + 1, Nat.succ_le_succ hn, by omega, (firstBehind_cons hat).2 h⟩
      · rintro ⟨n, hn, hstart, h⟩
        cases n with
        | zero => exact absurd (hat.symm.trans h.1) (by simp)
        | succ n =>
          exact ⟨n, Nat.le_of_succ_le_succ hn, by omega, (firstBehind_cons hat).1 h⟩

/-- A search finds the leftmost match, and among those that start there the preferred one. -/
theorem find_eq_some_iff :
    r.find cs = some m ↔ m.start ≤ cs.length ∧ FirstBehind r ⟨none, cs⟩ m.start m := by
  rw [find, findFrom_eq_some_iff]
  constructor
  · rintro ⟨n, hn, hstart, h⟩
    obtain rfl : m.start = n := hstart.trans (Nat.zero_add n)
    exact ⟨hn, h⟩
  · rintro ⟨hn, h⟩
    exact ⟨m.start, hn, (Nat.zero_add _).symm, h⟩

theorem find_at_start_iff :
    r.find cs = some { start := 0, text } ↔ r.matchAt ⟨none, cs⟩ = some text := by
  rw [find_eq_some_iff]
  exact ⟨fun h => h.2.1, fun h => ⟨Nat.zero_le _, h, fun i hi => absurd hi (Nat.not_lt_zero i)⟩⟩

end

end Regex

/-! ## At a cursor -/

namespace Cursor

variable {c : Cursor} {r : Regex} {label : String}

theorem matchPattern_of_matchAt {text : List Char} (h : r.matchAt ⟨none, c.ahead⟩ = some text) :
    c.matchPattern r label = .ok (String.ofList text, c.forward text.length) := by
  rw [matchPattern, Regex.find_at_start_iff.2 h]
  rfl

theorem matchPattern_of_matchAt_eq_none (h : r.matchAt ⟨none, c.ahead⟩ = none) :
    c.matchPattern r label = .error { expected := label, position := c.position } := by
  unfold matchPattern
  split
  · next text hfind =>
    rw [Regex.find_at_start_iff.1 hfind] at h
    cases h
  · rfl

/-- The preferred match is taken. -/
theorem matchPattern_eq_ok_iff {word : String} {next : Cursor} :
    c.matchPattern r label = .ok (word, next) ↔
      ∃ q, (r.ends ⟨none, c.ahead⟩).head? = some q ∧ c.ahead = word.toList ++ q.ahead ∧
        next = c.forward word.toList.length := by
  constructor
  · intro h
    cases hat : r.matchAt ⟨none, c.ahead⟩ with
    | none =>
      rw [matchPattern_of_matchAt_eq_none hat] at h
      cases h
    | some text =>
      rw [matchPattern_of_matchAt hat] at h
      cases h
      obtain ⟨q, hq, htext⟩ := Regex.matchAt_eq_some_iff.1 hat
      rw [String.toList_ofList]
      exact ⟨q, hq, htext, rfl⟩
  · rintro ⟨q, hq, hword, rfl⟩
    have hat : r.matchAt ⟨none, c.ahead⟩ = some word.toList :=
      Regex.matchAt_eq_some_iff.2 ⟨q, hq, hword⟩
    rw [matchPattern_of_matchAt hat, String.ofList_toList]

/-- Any match will do. -/
theorem exists_matchPattern_eq_ok_iff :
    (∃ found, c.matchPattern r label = .ok found) ↔ ∃ q, r.Matches ⟨none, c.ahead⟩ q := by
  cases hat : r.matchAt ⟨none, c.ahead⟩ with
  | none =>
    rw [matchPattern_of_matchAt_eq_none hat]
    constructor
    · rintro ⟨_, h⟩
      cases h
    · rintro ⟨q, hq⟩
      exact absurd hq (Regex.matchAt_eq_none_iff.1 hat q)
  | some text =>
    obtain ⟨q, hq, -⟩ := Regex.matchAt_eq_some_iff.1 hat
    have hmatch : r.Matches ⟨none, c.ahead⟩ q := Regex.mem_ends.1 (List.mem_of_mem_head? hq)
    exact ⟨fun _ => ⟨q, hmatch⟩, fun _ => ⟨_, matchPattern_of_matchAt hat⟩⟩

theorem matchPattern_eq_error {f : Failure} (h : c.matchPattern r label = .error f) :
    f = { expected := label, position := c.position } := by
  cases hat : r.matchAt ⟨none, c.ahead⟩ with
  | none =>
    rw [matchPattern_of_matchAt_eq_none hat] at h
    cases h
    rfl
  | some text =>
    rw [matchPattern_of_matchAt hat] at h
    cases h

end Cursor

end Descent
