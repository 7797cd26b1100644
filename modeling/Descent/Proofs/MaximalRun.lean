import Descent.Proofs.Places

/-!
# Repetitions as maximal runs

A repetition goes through its parser's successes one after the other for as long as they lead on
through the text. From a cursor there is one such course and no other (`Course.unique`): it ends where
the parser fails, or with a success that has stayed in place. What a repetition comes to and what it
tells is read off that course, and its parser is run at the places of the course and nowhere else
(`repeated_course`).

* `Strides p c steps d` : successes of `p` from `c` to `d`, each of which moves on;
* `Course p c steps d ending` : all successes of `p` from `c` on, and how they end.
-/

namespace Descent.Parser

variable {α : Type} {p : Parser α} {c d e : Cursor} {a : α} {steps : List (Cursor × α)}

/-! ## Courses -/

/-- Successes of `p` one after the other, from the first cursor to the second. Each is given by where it
began and by its value, and ends further on in the text. -/
inductive Strides (p : Parser α) : Cursor → List (Cursor × α) → Cursor → Prop where
  | nil (c : Cursor) : Strides p c [] c
  | cons {c d e : Cursor} {a : α} {steps : List (Cursor × α)} (h : (p c).result = .ok (a, d))
    (hd : c.position < d.position) (hs : Strides p d steps e) : Strides p c ((c, a) :: steps) e

/-- How the successes of a parser end: with one that stays in place, or because the parser fails. -/
inductive Ending where
  | stalled
  | failed (f : Failure)

/-- The successes of `p` from `c` on, each but perhaps the last further on in the text, up to where no
other follows. -/
inductive Course (p : Parser α) (c : Cursor) : List (Cursor × α) → Cursor → Ending → Prop where
  | stalled {d e : Cursor} {a : α} {steps : List (Cursor × α)} (hs : Strides p c steps d)
    (h : (p d).result = .ok (a, e)) (he : e.position = d.position) :
    Course p c (steps ++ [(d, a)]) e .stalled
  | failed {d : Cursor} {f : Failure} {steps : List (Cursor × α)} (hs : Strides p c steps d)
    (h : (p d).result = .error f) : Course p c steps d (.failed f)

theorem Course.cons {ending : Ending} (h : (p c).result = .ok (a, d)) (hd : c.position < d.position)
    (hc : Course p d steps e ending) : Course p c ((c, a) :: steps) e ending := by
  cases hc with
  | stalled hs hr he => exact .stalled (.cons h hd hs) hr he
  | failed hs hf => exact .failed (.cons h hd hs) hf

/-- At `c` no success of `p` moves on. -/
def NoStride (p : Parser α) (c : Cursor) : Prop :=
  ∀ a d, (p c).result = .ok (a, d) → ¬ c.position < d.position

theorem noStride_of_stalled (h : (p c).result = .ok (a, d)) (hd : d.position = c.position) :
    NoStride p c := by
  intro b e hr
  cases h.symm.trans hr
  omega

theorem noStride_of_error {f : Failure} (h : (p c).result = .error f) : NoStride p c := by
  intro b e hr
  cases h.symm.trans hr

/-- Strides that go as far as they can are the same strides. -/
theorem Strides.unique {steps' : List (Cursor × α)} {d' : Cursor} (h : Strides p c steps d)
    (hd : NoStride p d) (h' : Strides p c steps' d') (hd' : NoStride p d') :
    steps' = steps ∧ d' = d := by
  induction h generalizing steps' with
  | nil c =>
    cases h' with
    | nil => exact ⟨rfl, rfl⟩
    | cons hr hlt => exact absurd hlt (hd _ _ hr)
  | cons hr hlt hs ih =>
    cases h' with
    | nil => exact absurd hlt (hd' _ _ hr)
    | cons hr' hlt' hs' =>
      cases hr.symm.trans hr'
      obtain ⟨rfl, rfl⟩ := ih hd hs'
      exact ⟨rfl, rfl⟩

/-- There is one course from a cursor. -/
theorem Course.unique {steps' : List (Cursor × α)} {d' : Cursor} {ending ending' : Ending}
    (h : Course p c steps d ending) (h' : Course p c steps' d' ending') :
    steps' = steps ∧ d' = d ∧ ending' = ending := by
  cases h with
  | stalled hs hr he =>
    have hlast := noStride_of_stalled hr he
    cases h' with
    | stalled hs' hr' he' =>
      obtain ⟨rfl, rfl⟩ := hs.unique hlast hs' (noStride_of_stalled hr' he')
      cases hr.symm.trans hr'
      exact ⟨rfl, rfl, rfl⟩
    | failed hs' hf' =>
      obtain ⟨rfl, rfl⟩ := hs.unique hlast hs' (noStride_of_error hf')
      cases hr.symm.trans hf'
  | failed hs hf =>
    have hlast := noStride_of_error hf
    cases h' with
    | stalled hs' hr' he' =>
      obtain ⟨rfl, rfl⟩ := hs.unique hlast hs' (noStride_of_stalled hr' he')
      cases hf.symm.trans hr'
    | failed hs' hf' =>
      obtain ⟨rfl, rfl⟩ := hs.unique hlast hs' (noStride_of_error hf')
      cases hf.symm.trans hf'
      exact ⟨rfl, rfl, rfl⟩

/-- Each step but the last leaves less text ahead, so every course comes to an end. -/
theorem exists_course (hp : Onward p) (c : Cursor) :
    ∃ steps d ending, Course p c steps d ending := by
  induction hn : c.ahead.length using Nat.strongRecOn generalizing c with
  | ind n ih =>
    subst hn
    cases hr : (p c).result with
    | error f => exact ⟨[], c, .failed f, .failed (.nil c) hr⟩
    | ok found =>
      obtain ⟨a, d⟩ := found
      rcases Nat.eq_or_lt_of_le (hp c a d hr).2 with hd | hd
      · exact ⟨[(c, a)], d, .stalled, .stalled (.nil c) hr hd.symm⟩
      · have hless := (hp.length_ahead_lt_iff hr).2 (Nat.ne_of_gt hd)
        obtain ⟨steps, e, ending, hcourse⟩ := ih _ hless d rfl
        exact ⟨(c, a) :: steps, e, ending, hcourse.cons hr hd⟩

/-! ## The loop along a course -/

/-- What the loop has collected after `steps`, and where it goes on. -/
def Collected.after (s : Collected α) (p : Parser α) (steps : List (Cursor × α)) (d : Cursor) :
    Collected α :=
  { elements := s.elements ++ steps.map Prod.snd
    told := s.told ++ steps.flatMap fun step => (p step.1).trace
    cursor := d }

variable {s : Collected α} {states : List (Collected α)} {t : Run (List α)}

/-- Each stride is a round of the loop, and the loop goes on behind the last of them. -/
theorem Strides.runs (h : Strides p c steps d) (hs : s.cursor = c)
    (hr : Runs (repeatRound p) (s.after p steps d) states t) :
    ∃ before, before.map Collected.cursor = steps.map Prod.fst ∧
      Runs (repeatRound p) s (before ++ states) t := by
  induction h generalizing s with
  | nil c =>
    subst hs
    have hnone : s.after p [] s.cursor = s := by simp [Collected.after]
    rw [hnone] at hr
    exact ⟨[], rfl, hr⟩
  | @cons c d e a steps h hd hsteps ih =>
    subst hs
    have hround : repeatRound p s = .again (s.after p [(s.cursor, a)] d) := by
      rw [repeatRound_eq, roundOf_of_moved h (Nat.ne_of_gt hd)]
      simp [Collected.after]
    have hafter : s.after p ((s.cursor, a) :: steps) e =
        (s.after p [(s.cursor, a)] d).after p steps e := by
      simp [Collected.after, ← Array.toList_inj]
    rw [hafter] at hr
    obtain ⟨before, hbefore, hrest⟩ := ih rfl hr
    exact ⟨s :: before, congrArg (s.cursor :: ·) hbefore, .again hround hrest⟩

/-- The loop along a course whose last success stays in place. -/
theorem Course.runs_of_stalled (h : Course p c steps d .stalled) :
    ∃ states, states.map Collected.cursor = steps.map Prod.fst ∧
      Runs (repeatRound p) (.start c) states
        { result := .ok (steps.map Prod.snd, d)
          trace := steps.flatMap (fun step => (p step.1).trace) ++ [.repeatStalled d.position] } := by
  cases h with
  | @stalled d' _ a steps hs hr he =>
    have hround : repeatRound p ((Collected.start c).after p steps d') = .done
        { result := .ok ((steps ++ [(d', a)]).map Prod.snd, d)
          trace := (steps ++ [(d', a)]).flatMap (fun step => (p step.1).trace) ++
            [.repeatStalled d.position] } := by
      rw [repeatRound_eq, roundOf_of_stalled hr he]
      simp [Collected.after, Collected.start, he]
    obtain ⟨before, hbefore, hruns⟩ := hs.runs rfl (.done hround)
    exact ⟨before ++ [_], by simp [hbefore, Collected.after], hruns⟩

/-- The loop along a course to a failure, which it comes to in a round of its own. -/
theorem Course.runs_of_failed {f : Failure} (h : Course p c steps d (.failed f)) :
    ∃ states, states.map Collected.cursor = steps.map Prod.fst ++ [d] ∧
      Runs (repeatRound p) (.start c) states
        { result := endOfList (steps.map Prod.snd) f d
          trace := steps.flatMap (fun step => (p step.1).trace) ++ (p d).trace } := by
  cases h with
  | failed hs hf =>
    have hround : repeatRound p ((Collected.start c).after p steps d) = .done
        { result := endOfList (steps.map Prod.snd) f d
          trace := steps.flatMap (fun step => (p step.1).trace) ++ (p d).trace } := by
      rw [repeatRound_eq, roundOf_of_error hf]
      simp [Collected.after, Collected.start]
    obtain ⟨before, hbefore, hruns⟩ := hs.runs rfl (.done hround)
    exact ⟨before ++ [_], by simp [hbefore, Collected.after], hruns⟩

/-- Every success but perhaps the last takes up part of the text. -/
theorem Course.length_le {ending : Ending} (hp : Onward p) (h : Course p c steps d ending) :
    steps.length ≤ c.remaining.utf8ByteSize + 1 := by
  obtain ⟨states, t, hr, hsteps⟩ : ∃ states t, Runs (repeatRound p) (.start c) states t ∧
      steps.length ≤ states.length := by
    cases ending with
    | stalled =>
      obtain ⟨states, hplaces, hr⟩ := h.runs_of_stalled
      have hlength := congrArg List.length hplaces
      rw [List.length_map, List.length_map] at hlength
      exact ⟨states, _, hr, Nat.le_of_eq hlength.symm⟩
    | failed f =>
      obtain ⟨states, hplaces, hr⟩ := h.runs_of_failed
      have hlength := congrArg List.length hplaces
      rw [List.length_map, List.length_append, List.length_map] at hlength
      exact ⟨states, _, hr, by omega⟩
  rw [repeatRound_eq] at hr
  have hahead : states.length ≤ c.ahead.length + 1 := length_le_of_runs_roundOf (fun _ => hp) hr
  have hbytes := Text.length_le_byteLength c.ahead
  rw [Cursor.remaining, Text.utf8ByteSize_ofList]
  omega

/-! ## Repetitions -/

/-- **From a cursor the successes of a parser take one course. A repetition has their values and ends
where they end, or fails as the parser does if that is fatally. It tells what they tell, with a
note at the end if the last one stayed in place, and there are no more of them than bytes and one.** -/
theorem repeated_course (hp : Onward p) (c : Cursor) :
    ∃ steps d ending, Course p c steps d ending ∧
      (∀ steps' d' ending', Course p c steps' d' ending' →
        steps' = steps ∧ d' = d ∧ ending' = ending) ∧
      steps.length ≤ c.remaining.utf8ByteSize + 1 ∧
      (ending = .stalled →
        (repeated p c).result = .ok (steps.map Prod.snd, d) ∧
        (repeated p c).trace =
          steps.flatMap (fun step => (p step.1).trace) ++ [.repeatStalled d.position] ∧
        roundsOf p c = steps.map Prod.fst) ∧
      ∀ f, ending = .failed f →
        (f.fatal = false → (repeated p c).result = .ok (steps.map Prod.snd, d)) ∧
        (f.fatal = true → (repeated p c).result = .error f) ∧
        (repeated p c).trace = steps.flatMap (fun step => (p step.1).trace) ++ (p d).trace ∧
        roundsOf p c = steps.map Prod.fst ++ [d] := by
  obtain ⟨steps, d, ending, hcourse⟩ := exists_course hp c
  refine ⟨steps, d, ending, hcourse, fun _ _ _ h => hcourse.unique h, hcourse.length_le hp, ?_, ?_⟩
  · rintro rfl
    obtain ⟨states, hplaces, hr⟩ := hcourse.runs_of_stalled
    rw [repeated, hr.loop_eq, roundsOf_of_runs hr]
    exact ⟨rfl, rfl, hplaces⟩
  · rintro f rfl
    obtain ⟨states, hplaces, hr⟩ := hcourse.runs_of_failed
    rw [repeated, hr.loop_eq, roundsOf_of_runs hr]
    exact ⟨fun hf => endOfList_of_not_fatal d hf, fun hf => endOfList_of_fatal d hf, rfl, hplaces⟩

/-- A match of nothing is kept and noted, and at the depth limit what was collected is lost. -/
theorem repeated_course_of_endings :
    (Onward (choice [literal "a", literal ""]) ∧
      (repeated (choice [literal "a", literal ""]) (Cursor.atStart "ab")).result =
        .ok (["a", ""], (Cursor.atStart "ab").forward 1) ∧
      (repeated (choice [literal "a", literal ""]) (Cursor.atStart "ab")).trace =
        [.repeatStalled 1]) ∧
    Onward (choice [literal "a", nested (literal "b")]) ∧
      (repeated (choice [literal "a", nested (literal "b")]) (Cursor.atStart "ab" 0)).result =
        .error { expected := "nesting depth of at most 0", position := 1, fatal := true } := by
  have hempty : Onward (choice [literal "a", literal ""]) := by
    refine (advances_choice ?_).onward
    simp only [List.forall_mem_cons]
    exact ⟨advances_literal _, advances_literal _, fun _ h => nomatch h⟩
  have hlimit : Onward (choice [literal "a", nested (literal "b")]) := by
    refine (advances_choice ?_).onward
    simp only [List.forall_mem_cons]
    exact ⟨advances_literal _, advances_nested (advances_literal _), fun _ h => nomatch h⟩
  refine ⟨⟨hempty, ?_⟩, hlimit, ?_⟩
  · obtain ⟨steps, d, ending, -, hunique, -, hstalled, -⟩ :=
      repeated_course hempty (Cursor.atStart "ab")
    have hone : Strides (choice [literal "a", literal ""]) (Cursor.atStart "ab") _ _ :=
      .cons rfl (by decide) (.nil _)
    obtain ⟨rfl, rfl, rfl⟩ := hunique _ _ _ (.stalled hone rfl rfl)
    obtain ⟨hresult, htold, -⟩ := hstalled rfl
    exact ⟨hresult, htold⟩
  · obtain ⟨steps, d, ending, -, hunique, -, -, hfailed⟩ :=
      repeated_course hlimit (Cursor.atStart "ab" 0)
    have hone : Strides (choice [literal "a", nested (literal "b")]) (Cursor.atStart "ab" 0) _ _ :=
      .cons rfl (by decide) (.nil _)
    obtain ⟨rfl, rfl, rfl⟩ := hunique _ _ _ (.failed hone rfl)
    exact (hfailed _ rfl).2.1 rfl

end Descent.Parser
