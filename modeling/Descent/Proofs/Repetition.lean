import Descent.Parser.Repetition
import Descent.Proofs.Outcome

/-!
# Repetition as a recursion

The loops of `repeated` and `separatedList` end on a success at the same position. A parser that stays
in its text and never goes back (`Onward`) has less text ahead wherever the position is another one
(`length_ahead_lt_iff`). For such parsers the loops come to what a recursion on the text ahead comes to
(`repeated_eq_many`, `separatedList_eq`), and all that is known of the recursion is known of the loops.

* `many` : the recursion, told what to record when it ends on a success that consumed nothing;
* `roundOf` : what the rounds of the two loops have in common;
* `many_ok`, `separatedList_ok` : a list succeeds with as many elements as there are, provided that
  every element consumes something (`Rounds`, `Consumes`).
-/

namespace Descent

variable {α β : Type}

namespace Cursor

variable {c d : Cursor}

/-- What lies between two places of a text is ahead of the one and not of the other. -/
theorem exists_word_of_position_le (ht : d.text = c.text) (hp : c.position ≤ d.position) :
    ∃ word, c.ahead = word ++ d.ahead ∧ d.position = c.position + Text.byteLength word := by
  have hchars : c.passed.reverse ++ c.ahead = d.passed.reverse ++ d.ahead := by
    have := congrArg String.toList ht
    simpa only [text, String.toList_ofList] using this.symm
  have hposition : ∀ e : Cursor, e.position = Text.byteLength e.passed.reverse :=
    fun e => (Text.byteLength_reverse e.passed).symm
  rcases List.append_eq_append_iff.1 hchars with ⟨word, hpassed, hahead⟩ | ⟨word, hpassed, hahead⟩
  · refine ⟨word, hahead, ?_⟩
    rw [hposition d, hposition c, hpassed, Text.byteLength_append]
  · -- `d` is not before `c`, so there is nothing between them
    have hlen := Text.length_le_byteLength word
    have hback : c.position = d.position + Text.byteLength word := by
      rw [hposition d, hposition c, hpassed, Text.byteLength_append]
    have hnil : word = [] := List.length_eq_zero_iff.1 (by omega)
    subst hnil
    exact ⟨[], hahead.symm, hback.symm⟩

theorem length_ahead_lt_iff (ht : d.text = c.text) (hp : c.position ≤ d.position) :
    d.ahead.length < c.ahead.length ↔ d.position ≠ c.position := by
  obtain ⟨word, hahead, hposition⟩ := exists_word_of_position_le ht hp
  have hlen := Text.length_le_byteLength word
  rw [hahead, hposition, List.length_append]
  cases word with
  | nil => simp
  | cons ch word => simp at hlen ⊢; omega

end Cursor

namespace Parser

/-- After a success the cursor is in the same text and no nearer to its start. -/
def Onward (p : Parser α) : Prop :=
  ∀ c a c', (p c).result = .ok (a, c') → c'.text = c.text ∧ c.position ≤ c'.position

theorem Onward.length_ahead_lt_iff {p : Parser α} (hp : Onward p) {c d : Cursor} {a : α}
    (hr : (p c).result = .ok (a, d)) : d.ahead.length < c.ahead.length ↔ d.position ≠ c.position := by
  obtain ⟨htext, hposition⟩ := hp c a d hr
  exact Cursor.length_ahead_lt_iff htext hposition

theorem Onward.followedBy {left : Parser β} {main : Parser α} (hl : Onward left) (hm : Onward main) :
    Onward (followedBy left main) := by
  intro c a c' h
  obtain ⟨b, d, hb, ha⟩ := Run.andThen_ok.1 h
  obtain ⟨htext, hposition⟩ := hl c b d hb
  obtain ⟨htext', hposition'⟩ := hm d a c' ha
  exact ⟨htext'.trans htext, Nat.le_trans hposition hposition'⟩

/-! ## Rounds of the loops -/

/-- A loop that has come to a result has gone through some rounds. -/
theorem runs_of_ok {σ : Type} {body : σ → Pass σ (Run α)} {s : σ} {c c' : Cursor} {a : α}
    (h : ((loop body s).getD (endless c)).result = .ok (a, c')) :
    ∃ states t, Runs body s states t ∧ t.result = .ok (a, c') := by
  cases hl : loop body s with
  | none =>
    rw [hl] at h
    cases h
  | some t =>
    obtain ⟨states, hr⟩ := loop_eq_some_iff.1 hl
    rw [hl] at h
    exact ⟨states, t, hr, h⟩

theorem endOfList_of_fatal {elements : List α} {f : Failure} (c : Cursor) (hf : f.fatal = true) :
    endOfList elements f c = .error f :=
  if_pos hf

theorem endOfList_of_not_fatal {elements : List α} {f : Failure} (c : Cursor)
    (hf : f.fatal = false) : endOfList elements f c = .ok (elements, c) :=
  if_neg (Bool.eq_false_iff.1 hf)

theorem endOfList_error {elements : List α} {f g : Failure} {c : Cursor}
    (h : endOfList elements f c = .error g) : g = f ∧ f.fatal = true := by
  unfold endOfList at h
  split at h
  · next hf =>
    cases h
    exact ⟨rfl, hf⟩
  · cases h

theorem endOfList_ok {elements as : List α} {f : Failure} {c c' : Cursor}
    (h : endOfList elements f c = .ok (as, c')) : f.fatal = false ∧ as = elements ∧ c' = c := by
  unfold endOfList at h
  split at h
  · cases h
  · next hf =>
    cases h
    exact ⟨Bool.eq_false_iff.2 hf, rfl, rfl⟩

/-- A round of a loop over `run`, which is told whether the round is the first. -/
def roundOf (stalled : Nat → Trace) (run : Bool → Parser α) (s : Collected α) :
    Pass (Collected α) (Run (List α)) :=
  let r := run s.elements.isEmpty s.cursor
  match r.result with
  | .ok (a, next) =>
    if next.position = s.cursor.position then
      .done
        { result := .ok (s.elements.toList ++ [a], next)
          trace := s.told.toList ++ r.trace ++ stalled s.cursor.position }
    else .again { elements := s.elements.push a, told := s.told ++ r.trace, cursor := next }
  | .error f =>
    .done
      { result := endOfList s.elements.toList f s.cursor, trace := s.told.toList ++ r.trace }

theorem repeatRound_eq (p : Parser α) :
    repeatRound p = roundOf (fun position => [.repeatStalled position]) fun _ => p := by
  funext s
  cases hr : (p s.cursor).result <;>
    simp only [repeatRound, roundOf, hr, Array.toList_push, Array.toList_appendList]

theorem listRound_eq (separator : Parser β) (p : Parser α) :
    listRound separator p = roundOf (fun _ => []) (elementOf separator p) := by
  funext s
  cases hr : (elementOf separator p s.elements.isEmpty s.cursor).result <;>
    simp only [listRound, roundOf, hr, Array.toList_push, Array.toList_appendList, List.append_nil]

section
variable {stalled : Nat → Trace} {run : Bool → Parser α} {s s' : Collected α} {a : α} {d : Cursor}
  {f : Failure} {t : Run (List α)}

theorem roundOf_of_moved (hr : (run s.elements.isEmpty s.cursor).result = .ok (a, d))
    (hd : d.position ≠ s.cursor.position) :
    roundOf stalled run s = .again
      { elements := s.elements.push a
        told := s.told ++ (run s.elements.isEmpty s.cursor).trace
        cursor := d } := by
  simp only [roundOf, hr, if_neg hd]

theorem roundOf_of_stalled (hr : (run s.elements.isEmpty s.cursor).result = .ok (a, d))
    (hd : d.position = s.cursor.position) :
    roundOf stalled run s = .done
      { result := .ok (s.elements.toList ++ [a], d)
        trace := s.told.toList ++ (run s.elements.isEmpty s.cursor).trace ++
          stalled s.cursor.position } := by
  simp only [roundOf, hr, if_pos hd]

theorem roundOf_of_error (hr : (run s.elements.isEmpty s.cursor).result = .error f) :
    roundOf stalled run s = .done
      { result := endOfList s.elements.toList f s.cursor
        trace := s.told.toList ++ (run s.elements.isEmpty s.cursor).trace } := by
  simp only [roundOf, hr]

/-- A round is followed by another one if it got an element and came to another position. -/
theorem roundOf_again (h : roundOf stalled run s = .again s') :
    ∃ a d, (run s.elements.isEmpty s.cursor).result = .ok (a, d) ∧ d.position ≠ s.cursor.position ∧
      s' = { elements := s.elements.push a
             told := s.told ++ (run s.elements.isEmpty s.cursor).trace
             cursor := d } := by
  cases hr : (run s.elements.isEmpty s.cursor).result with
  | error f =>
    rw [roundOf_of_error hr] at h
    cases h
  | ok found =>
    obtain ⟨a, d⟩ := found
    by_cases hd : d.position = s.cursor.position
    · rw [roundOf_of_stalled hr hd] at h
      cases h
    · rw [roundOf_of_moved hr hd] at h
      cases h
      exact ⟨a, d, rfl, hd, rfl⟩

/-- The last round got an element at its own position, or failed. -/
theorem roundOf_done (h : roundOf stalled run s = .done t) :
    (∃ a d, (run s.elements.isEmpty s.cursor).result = .ok (a, d) ∧
      d.position = s.cursor.position ∧
      t = { result := .ok (s.elements.toList ++ [a], d)
            trace := s.told.toList ++ (run s.elements.isEmpty s.cursor).trace ++
              stalled s.cursor.position }) ∨
    ∃ f, (run s.elements.isEmpty s.cursor).result = .error f ∧
      t = { result := endOfList s.elements.toList f s.cursor
            trace := s.told.toList ++ (run s.elements.isEmpty s.cursor).trace } := by
  cases hr : (run s.elements.isEmpty s.cursor).result with
  | error f =>
    rw [roundOf_of_error hr] at h
    cases h
    exact .inr ⟨f, rfl, rfl⟩
  | ok found =>
    obtain ⟨a, d⟩ := found
    by_cases hd : d.position = s.cursor.position
    · rw [roundOf_of_stalled hr hd] at h
      cases h
      exact .inl ⟨a, d, rfl, hd, rfl⟩
    · rw [roundOf_of_moved hr hd] at h
      cases h

/-- Where the rounds lead onward, the loop ends. -/
theorem exists_runs_roundOf {I : Cursor → Prop}
    (hrun : ∀ first c a d, I c → (run first c).result = .ok (a, d) →
      I d ∧ d.text = c.text ∧ c.position ≤ d.position)
    (hs : I s.cursor) : ∃ states t, Runs (roundOf stalled run) s states t := by
  refine exists_runs (fun s => I s.cursor) (fun s => s.cursor.ahead.length) ?_ hs
  intro s s' hI h
  obtain ⟨a, d, hr, hd, rfl⟩ := roundOf_again h
  obtain ⟨hI', htext, hposition⟩ := hrun _ _ a d hI hr
  exact ⟨hI', (Cursor.length_ahead_lt_iff htext hposition).2 hd⟩

/-- A loop ends on every failure that is not fatal. -/
theorem fatal_of_roundOf_error {states : List (Collected α)}
    (h : Runs (roundOf stalled run) s states t) (hf : t.result = .error f) : f.fatal = true := by
  induction h with
  | again _ _ ih => exact ih hf
  | done h =>
    rcases roundOf_done h with ⟨a, d, -, -, rfl⟩ | ⟨g, -, rfl⟩
    · cases hf
    · obtain ⟨rfl, hfatal⟩ := endOfList_error hf
      exact hfatal

/-- Every round but the last takes up part of the text. -/
theorem length_le_of_runs_roundOf (hrun : ∀ first, Onward (run first))
    {states : List (Collected α)} (h : Runs (roundOf stalled run) s states t) :
    states.length ≤ s.cursor.ahead.length + 1 := by
  induction h with
  | done h => exact Nat.le_add_left 1 _
  | again h _ ih =>
    obtain ⟨a, d, hr, hd, rfl⟩ := roundOf_again h
    have hless := ((hrun _).length_ahead_lt_iff hr).2 hd
    rw [List.length_cons]
    exact Nat.succ_le_succ (Nat.le_trans ih hless)

end

theorem Onward.elementOf {separator : Parser β} {p : Parser α} (hs : Onward separator)
    (hp : Onward p) (first : Bool) : Onward (elementOf separator p first) := by
  cases first with
  | true => exact hp
  | false => exact hs.followedBy hp

/-- A list of parsers that lead onward ends. -/
theorem exists_runs_listRound {separator : Parser β} {p : Parser α} (hs : Onward separator)
    (hp : Onward p) (s : Collected α) : ∃ states t, Runs (listRound separator p) s states t := by
  rw [listRound_eq]
  exact exists_runs_roundOf (I := fun _ => True)
    (fun first c a d _ h => ⟨trivial, hs.elementOf hp first c a d h⟩) trivial

/-- The values of `p` run again and again, from the first cursor to the second. -/
inductive Rounds (p : Parser α) : Cursor → List α → Cursor → Prop where
  | nil (c : Cursor) : Rounds p c [] c
  | cons {c d c' : Cursor} {a : α} {as : List α} (h : (p c).result = .ok (a, d))
    (hr : Rounds p d as c') : Rounds p c (a :: as) c'

section
variable {stalled : Nat → Trace} {run : Bool → Parser α} {p : Parser α} {s : Collected α}
  {t : Run (List α)} {states : List (Collected α)}

/-- Once all rounds are rounds of `p`, a loop collects what they get, one round for each value and one
more to find that no other follows, unless one has gone nowhere. -/
theorem rounds_of_runs_ok (h : Runs (roundOf stalled run) s states t) (hp : run false = p)
    (hs : run s.elements.isEmpty = p) {as : List α} {e : Cursor} (ht : t.result = .ok (as, e)) :
    ∃ bs, as = s.elements.toList ++ bs ∧ Rounds p s.cursor bs e ∧
      (states.length = bs.length + 1 ∨
        ∃ c a d, (p c).result = .ok (a, d) ∧ d.position = c.position) := by
  induction h with
  | done h =>
    rcases roundOf_done h with ⟨a, d, hr, hd, rfl⟩ | ⟨f, hr, rfl⟩
    · cases ht
      rw [hs] at hr
      exact ⟨[a], rfl, .cons hr (.nil _), .inr ⟨_, a, _, hr, hd⟩⟩
    · obtain ⟨-, rfl, rfl⟩ := endOfList_ok ht
      exact ⟨[], (List.append_nil _).symm, .nil _, .inl rfl⟩
  | again h _ ih =>
    obtain ⟨a, d, hr, hd, rfl⟩ := roundOf_again h
    rw [hs] at hr
    obtain ⟨bs, rfl, hrounds, hlength⟩ := ih (by simpa using hp) ht
    refine ⟨a :: bs, by simp, .cons hr hrounds, hlength.imp_left fun hlength => ?_⟩
    rw [List.length_cons, hlength, List.length_cons]

/-- Such a loop fails as `p` does behind some rounds, in one round more. -/
theorem rounds_of_runs_error (h : Runs (roundOf stalled run) s states t) (hp : run false = p)
    (hs : run s.elements.isEmpty = p) {f : Failure} (ht : t.result = .error f) :
    ∃ as d, Rounds p s.cursor as d ∧ (p d).result = .error f ∧ states.length = as.length + 1 := by
  induction h with
  | done h =>
    rcases roundOf_done h with ⟨a, d, -, -, rfl⟩ | ⟨g, hr, rfl⟩
    · cases ht
    · obtain ⟨rfl, -⟩ := endOfList_error ht
      rw [hs] at hr
      exact ⟨[], _, .nil _, hr, rfl⟩
  | again h _ ih =>
    obtain ⟨a, d, hr, hd, rfl⟩ := roundOf_again h
    rw [hs] at hr
    obtain ⟨as, e, hrounds, hf, hlength⟩ := ih (by simpa using hp) ht
    refine ⟨a :: as, e, .cons hr hrounds, hf, ?_⟩
    rw [List.length_cons, hlength, List.length_cons]

end

/-! ## The recursion -/

/-- The longest run of `p`, by recursion on the text ahead. What is told of a last success that
consumed nothing is for `stalled` to say, given the position. -/
def many (stalled : Nat → Trace) (p : Parser α) (c : Cursor) : Run (List α) :=
  let r := p c
  match r.result with
  | .error f => { result := endOfList [] f c, trace := r.trace }
  | .ok (a, c') =>
    if c'.ahead.length < c.ahead.length then
      ((many stalled p c').map (a :: ·)).after r.trace
    else
      { result := .ok ([a], c'), trace := r.trace ++ stalled c.position }
termination_by c.ahead.length

section
variable {stalled : Nat → Trace} {p : Parser α} {c c' : Cursor} {a : α} {f : Failure}

theorem many_of_error (h : (p c).result = .error f) (hf : f.fatal = false) :
    many stalled p c = { result := .ok ([], c), trace := (p c).trace } := by
  rw [many]
  simp only [h, endOfList_of_not_fatal c hf]

theorem many_of_ok (h : (p c).result = .ok (a, c')) (hc : c'.ahead.length < c.ahead.length) :
    many stalled p c = ((many stalled p c').map (a :: ·)).after (p c).trace := by
  rw [many]
  simp only [h, hc, if_true]

theorem many_of_fatal (h : (p c).result = .error f) (hf : f.fatal = true) :
    (many stalled p c).result = .error f := by
  rw [many]
  simp only [h, endOfList_of_fatal c hf]

/-- A success that consumes nothing is kept, and is the last. -/
theorem many_of_stalled (h : (p c).result = .ok (a, c')) (hc : ¬ c'.ahead.length < c.ahead.length) :
    (many stalled p c).result = .ok ([a], c') := by
  rw [many]
  simp only [h, hc, if_false]

end

/-- Once all rounds are rounds of `p`, the loop comes to what the recursion comes to, behind what it
has collected. -/
theorem loop_roundOf {stalled : Nat → Trace} {run : Bool → Parser α} {p : Parser α} (hp : Onward p)
    (hrun : run false = p) {s : Collected α} (hs : run s.elements.isEmpty = p) :
    loop (roundOf stalled run) s = some
      (((many stalled p s.cursor).map (s.elements.toList ++ ·)).after s.told.toList) := by
  induction hn : s.cursor.ahead.length using Nat.strongRecOn generalizing s with
  | ind n ih =>
    subst hn
    cases hr : (p s.cursor).result with
    | error f =>
      rw [loop_of_done (roundOf_of_error (hs ▸ hr)), hs, many]
      simp only [hr]
      cases hf : f.fatal <;> simp [endOfList, hf, Run.after, Run.map, Except.map]
    | ok found =>
      obtain ⟨a, d⟩ := found
      by_cases hd : d.position = s.cursor.position
      · have hstays : ¬ d.ahead.length < s.cursor.ahead.length :=
          fun hlt => (hp.length_ahead_lt_iff hr).1 hlt hd
        rw [loop_of_done (roundOf_of_stalled (hs ▸ hr) hd), hs, many]
        simp [hr, hstays, Run.after, Run.map, Except.map]
      · -- the next round is one of `p`, as there is an element now
        have hless := (hp.length_ahead_lt_iff hr).2 hd
        have hnext : run (s.elements.push a).isEmpty = p := by simpa using hrun
        rw [loop_of_again (roundOf_of_moved (hs ▸ hr) hd), ih _ hless hnext rfl, hs,
          many_of_ok hr hless, Run.map_after, Run.map_map, Run.after_after]
        simp [Function.comp_def]

/-- Zero or more of a parser that leads onward, as a recursion. -/
theorem repeated_eq_many {p : Parser α} (hp : Onward p) :
    repeated p = many (fun position => [.repeatStalled position]) p := by
  funext c
  rw [repeated, repeatRound_eq, loop_roundOf hp rfl rfl]
  exact Run.map_id _

/-- Every success leaves less text ahead. -/
def Consumes (p : Parser α) : Prop :=
  ∀ c a c', (p c).result = .ok (a, c') → c'.ahead.length < c.ahead.length

theorem rounds_of_many {stalled : Nat → Trace} {p : Parser α} {c c' : Cursor} {as : List α}
    (h : (many stalled p c).result = .ok (as, c')) : Rounds p c as c' := by
  induction hn : c.ahead.length using Nat.strongRecOn generalizing c as with
  | ind n ih =>
    subst hn
    rw [many] at h
    split at h
    · obtain ⟨-, rfl, rfl⟩ := endOfList_ok h
      exact .nil c'
    · next a d hr =>
      split at h
      · next hd =>
        obtain ⟨bs, hbs, rfl⟩ := Run.map_ok.1 h
        exact .cons hr (ih _ hd hbs rfl)
      · cases h
        exact .cons hr (.nil c')

/-- A loop fails as its parser does after some rounds. -/
theorem rounds_of_many_error {stalled : Nat → Trace} {p : Parser α} {c : Cursor} {f : Failure}
    (h : (many stalled p c).result = .error f) :
    ∃ as d, Rounds p c as d ∧ (p d).result = .error f := by
  induction hn : c.ahead.length using Nat.strongRecOn generalizing c with
  | ind n ih =>
    subst hn
    rw [many] at h
    split at h
    · next g hr =>
      obtain ⟨rfl, -⟩ := endOfList_error h
      exact ⟨[], c, .nil c, hr⟩
    · next a c' hr =>
      split at h
      · next hc =>
        obtain ⟨as, d, has, hd⟩ := ih _ hc (Run.map_error.1 h) rfl
        exact ⟨a :: as, d, .cons hr has, hd⟩
      · cases h

/-- A loop that consumes in every round goes on for as long as it can. -/
theorem many_ok {stalled : Nat → Trace} {p : Parser α} (hp : Consumes p) {c c' : Cursor}
    {as : List α} :
    (many stalled p c).result = .ok (as, c') ↔
      Rounds p c as c' ∧ ∃ f, (p c').result = .error f ∧ f.fatal = false := by
  constructor
  · intro h
    refine ⟨rounds_of_many h, ?_⟩
    have hr := rounds_of_many h
    induction hr with
    | nil c =>
      cases hr : (p c).result with
      | error f =>
        rw [many] at h
        simp only [hr] at h
        exact ⟨f, rfl, (endOfList_ok h).1⟩
      | ok x =>
        obtain ⟨a, d⟩ := x
        rw [many_of_ok hr (hp c a d hr)] at h
        obtain ⟨bs, -, hbs⟩ := Run.map_ok.1 h
        cases hbs
    | cons hr hrest ih =>
      rw [many_of_ok hr (hp _ _ _ hr)] at h
      obtain ⟨bs, hbs, hbs'⟩ := Run.map_ok.1 h
      cases hbs'
      exact ih hbs
  · rintro ⟨h, f, hf, hfatal⟩
    induction h with
    | nil c => rw [many_of_error hf hfatal]
    | cons hr hrest ih =>
      rw [many_of_ok hr (hp _ _ _ hr)]
      exact Run.map_ok.2 ⟨_, ih hf, rfl⟩

/-- A fatal failure behind some rounds is that of the loop. -/
theorem many_of_rounds_fatal {stalled : Nat → Trace} {p : Parser α} (hp : Consumes p) {c c' : Cursor}
    {as : List α} {f : Failure} (h : Rounds p c as c') (hf : (p c').result = .error f)
    (hfatal : f.fatal = true) : (many stalled p c).result = .error f := by
  induction h with
  | nil c => exact many_of_fatal hf hfatal
  | cons hr hrest ih =>
    rw [many_of_ok hr (hp _ _ _ hr)]
    exact Run.map_error.2 (ih hf)

/-! ## Lists with separators -/

section
variable {separator : Parser β} {p : Parser α} {c c' : Cursor} {a : α} {f : Failure}

/-- A list whose first element fails is over. -/
theorem separatedList_of_first_error (h : (p c).result = .error f) :
    separatedList separator p c = { result := endOfList [] f c, trace := (p c).trace } := by
  have hround : (elementOf separator p true c).result = .error f := h
  rw [separatedList, listRound_eq, loop_of_done (roundOf_of_error hround)]
  rfl

theorem separatedList_of_error (h : (p c).result = .error f) (hf : f.fatal = false) :
    separatedList separator p c = { result := .ok ([], c), trace := (p c).trace } := by
  rw [separatedList_of_first_error h, endOfList_of_not_fatal c hf]

theorem separatedList_of_fatal (h : (p c).result = .error f) (hf : f.fatal = true) :
    (separatedList separator p c).result = .error f := by
  rw [separatedList_of_first_error h]
  exact endOfList_of_fatal c hf

/-- A first element that goes nowhere is the only one. -/
theorem separatedList_of_stalled (h : (p c).result = .ok (a, c')) (hc : c'.position = c.position) :
    separatedList separator p c = { result := .ok ([a], c'), trace := (p c).trace } := by
  have hround : (elementOf separator p true c).result = .ok (a, c') := h
  rw [separatedList, listRound_eq, loop_of_done (roundOf_of_stalled hround hc)]
  simp [Collected.start, elementOf]

/-- Behind a first element that consumed something, a list of parsers that lead onward is a recursion
over the separator with an element behind it. -/
theorem separatedList_of_ok (hs : Onward separator) (hp : Onward p)
    (h : (p c).result = .ok (a, c')) (hc : c'.ahead.length < c.ahead.length) :
    separatedList separator p c =
      ((many (fun _ => []) (followedBy separator p) c').map (a :: ·)).after (p c).trace := by
  have hround : (elementOf separator p true c).result = .ok (a, c') := h
  have hmoved := (hp.length_ahead_lt_iff h).1 hc
  rw [separatedList, listRound_eq, loop_of_again (roundOf_of_moved hround hmoved),
    loop_roundOf (hs.followedBy hp) rfl rfl]
  simp [Collected.start, elementOf]

/-- A list as a recursion. -/
theorem separatedList_eq (hs : Onward separator) (hp : Onward p) (c : Cursor) :
    separatedList separator p c =
      match (p c).result with
      | .error f => { result := endOfList [] f c, trace := (p c).trace }
      | .ok (a, c') =>
        if c'.ahead.length < c.ahead.length then
          ((many (fun _ => []) (followedBy separator p) c').map (a :: ·)).after (p c).trace
        else { result := .ok ([a], c'), trace := (p c).trace } := by
  cases hr : (p c).result with
  | error f => exact separatedList_of_first_error hr
  | ok found =>
    obtain ⟨a, c'⟩ := found
    dsimp only
    split
    · next hc => exact separatedList_of_ok hs hp hr hc
    · next hc =>
      have hstays : c'.position = c.position :=
        Decidable.not_not.1 fun hd => hc ((hp.length_ahead_lt_iff hr).2 hd)
      exact separatedList_of_stalled hr hstays

theorem fatal_of_separatedList_error (h : (separatedList separator p c).result = .error f) :
    f.fatal = true := by
  rw [separatedList, listRound_eq] at h
  cases hl : loop (roundOf (fun _ => []) (elementOf separator p)) (.start c) with
  | some r =>
    obtain ⟨states, hr⟩ := loop_eq_some_iff.1 hl
    rw [hl] at h
    exact fatal_of_roundOf_error hr h
  | none =>
    rw [hl] at h
    cases h
    rfl

end

theorem separatedList_ok {separator : Parser β} {p : Parser α} (hs : Onward separator)
    (hp : Onward p) (hconsumes : Consumes p) {c c' : Cursor} {as : List α} :
    (separatedList separator p c).result = .ok (as, c') ↔
      (as = [] ∧ c' = c ∧ ∃ f, (p c).result = .error f ∧ f.fatal = false) ∨
      ∃ a bs d, as = a :: bs ∧ (p c).result = .ok (a, d) ∧
        (many (fun _ => []) (followedBy separator p) d).result = .ok (bs, c') := by
  constructor
  · intro h
    cases hr : (p c).result with
    | error f =>
      rw [separatedList_of_first_error hr] at h
      obtain ⟨hf, rfl, rfl⟩ := endOfList_ok h
      exact .inl ⟨rfl, rfl, f, rfl, hf⟩
    | ok found =>
      obtain ⟨a, d⟩ := found
      rw [separatedList_of_ok hs hp hr (hconsumes c a d hr)] at h
      obtain ⟨bs, hbs, rfl⟩ := Run.map_ok.1 h
      exact .inr ⟨a, bs, d, rfl, rfl, hbs⟩
  · rintro (⟨rfl, rfl, f, hr, hf⟩ | ⟨a, bs, d, rfl, hr, hbs⟩)
    · rw [separatedList_of_error hr hf]
    · rw [separatedList_of_ok hs hp hr (hconsumes c a d hr)]
      exact Run.map_ok.2 ⟨bs, hbs, rfl⟩

end Parser

end Descent
