import Descent.Proofs.Outcome

/-!
# How a choice is decided

The first alternative that succeeds or fails fatally decides a choice, and those behind it leave no
mark on the run. Where all alternatives refuse, the choice fails as the one that got furthest, or as
the first of these if several got equally far. Of two rows of failures the first furthest is that of
the two first furthest ones, so it makes no difference whether neighbouring alternatives are put into
a choice of their own (`choice_decision`).

* `Run.Decides` : a run that ends a choice; otherwise the alternative refuses (`Refuses`);
* `furthestOf best fs` : what there is to report after `best` and then `fs`. The failure that stands
  for a row of them (`StandsFor`) is carried along the row by `StandsFor.concat`.
-/

namespace Descent

open Descent.Run

variable {α : Type}

/-- A success or a fatal failure: no further alternative is tried. -/
def Run.Decides (r : Run α) : Prop := ∀ f, r.result = .error f → f.fatal = true

theorem Run.not_decides_of_error {r : Run α} {f : Failure} (h : r.result = .error f)
    (hf : f.fatal = false) : ¬ r.Decides := by
  intro hr
  rw [hr f h] at hf
  cases hf

namespace Parser

/-! ## The first furthest failure -/

/-- The failure to report after `best` and then `fs`, if any. -/
def furthestOf (best : Option Failure) (fs : List Failure) : Option Failure :=
  fs.foldl (fun best f => some (furthest best f)) best

theorem furthestOf_append (best : Option Failure) (fs gs : List Failure) :
    furthestOf best (fs ++ gs) = furthestOf (furthestOf best fs) gs :=
  List.foldl_append

theorem furthest_assoc (best : Option Failure) (f g : Failure) :
    furthest (some (furthest best f)) g = furthest best (furthest (some f) g) := by
  cases best with
  | none => rfl
  | some b => grind [furthest]

/-- No failure got further than `f`, and none before it got as far. -/
def FirstFurthest (fs : List Failure) (f : Failure) : Prop :=
  ∃ before after, fs = before ++ f :: after ∧ (∀ g ∈ before, g.position < f.position) ∧
    ∀ g ∈ fs, g.position ≤ f.position

theorem FirstFurthest.concat {fs : List Failure} {f : Failure} (h : FirstFurthest fs f) (g : Failure) :
    FirstFurthest (fs ++ [g]) (furthest (some f) g) := by
  obtain ⟨before, after, rfl, hbefore, hall⟩ := h
  unfold furthest
  dsimp only
  split
  · next hlt =>
    have hless : ∀ k ∈ before ++ f :: after, k.position < g.position :=
      fun k hk => Nat.lt_of_le_of_lt (hall k hk) hlt
    refine ⟨_, [], rfl, hless, List.forall_mem_append.2 ⟨fun k hk => Nat.le_of_lt (hless k hk), ?_⟩⟩
    exact List.forall_mem_singleton.2 (Nat.le_refl _)
  · next hle =>
    refine ⟨before, after ++ [g], by simp, hbefore, List.forall_mem_append.2 ⟨hall, ?_⟩⟩
    exact List.forall_mem_singleton.2 (Nat.not_lt.1 hle)

/-- Reporting `f` is reporting the row, whatever was met before it. -/
structure StandsFor (f : Failure) (fs : List Failure) : Prop where
  firstFurthest : FirstFurthest fs f
  furthestOf_eq : ∀ best, furthestOf best fs = some (furthest best f)

theorem standsFor_singleton (f : Failure) : StandsFor f [f] where
  firstFurthest :=
    ⟨[], [], rfl, fun _ h => (nomatch h), List.forall_mem_singleton.2 (Nat.le_refl _)⟩
  furthestOf_eq _ := rfl

theorem StandsFor.concat {f : Failure} {fs : List Failure} (h : StandsFor f fs) (g : Failure) :
    StandsFor (furthest (some f) g) (fs ++ [g]) where
  firstFurthest := h.firstFurthest.concat g
  furthestOf_eq best := by
    rw [furthestOf_append, h.furthestOf_eq, ← furthest_assoc]
    rfl

theorem StandsFor.append {f : Failure} {fs : List Failure} (h : StandsFor f fs) (gs : List Failure) :
    ∃ g, StandsFor g (fs ++ gs) := by
  induction gs generalizing f fs with
  | nil => exact ⟨f, by rwa [List.append_nil]⟩
  | cons g gs ih =>
    obtain ⟨k, hk⟩ := ih (h.concat g)
    exact ⟨k, by rwa [List.append_assoc] at hk⟩

/-- Of a row that is not empty there is a first furthest. -/
theorem exists_standsFor {fs : List Failure} (h : fs ≠ []) : ∃ f, StandsFor f fs := by
  obtain ⟨f, gs, rfl⟩ := List.exists_cons_of_ne_nil h
  exact (standsFor_singleton f).append gs

/-! ## Alternatives that refuse -/

/-- Each of the alternatives fails at `c` with the failure beside it, which is not fatal. -/
def Refuses (c : Cursor) (tried : List (Parser α × Failure)) : Prop :=
  ∀ x ∈ tried, (x.1 c).result = .error x.2 ∧ x.2.fatal = false

/-- Either there is a first alternative that decides, or all of them refuse. -/
inductive Decision (c : Cursor) (ps : List (Parser α)) : Prop where
  | decided (tried : List (Parser α × Failure)) {p : Parser α} {later : List (Parser α)}
    (hps : ps = tried.map Prod.fst ++ p :: later) (ht : Refuses c tried) (hp : (p c).Decides)
  | refused (tried : List (Parser α × Failure)) (hps : ps = tried.map Prod.fst)
    (ht : Refuses c tried)

theorem decision (c : Cursor) (ps : List (Parser α)) : Decision c ps := by
  induction ps with
  | nil => exact .refused [] rfl fun _ h => nomatch h
  | cons p ps ih =>
    by_cases hp : (p c).Decides
    · exact .decided [] rfl (fun _ h => nomatch h) hp
    · have hrefuses : ∃ f, (p c).result = .error f ∧ f.fatal = false := by
        simpa [Decides] using hp
      obtain ⟨f, hf⟩ := hrefuses
      cases ih with
      | decided tried hps ht hq =>
        exact .decided ((p, f) :: tried) (by rw [hps]; rfl) (List.forall_mem_cons.2 ⟨hf, ht⟩) hq
      | refused tried hps ht =>
        exact .refused ((p, f) :: tried) (by rw [hps]; rfl) (List.forall_mem_cons.2 ⟨hf, ht⟩)

section
variable {n : Nat} {c : Cursor} {tried : List (Parser α × Failure)} {best : Option Failure}

theorem Refuses.not_decides (h : Refuses c tried) : ∀ p ∈ tried.map Prod.fst, ¬ (p c).Decides := by
  intro p hp
  obtain ⟨x, hx, rfl⟩ := List.mem_map.1 hp
  exact not_decides_of_error (h x hx).1 (h x hx).2

/-- Refusals are passed over, and only the one to report is kept of them. -/
theorem tryEach_of_refuses (h : Refuses c tried) (ps : List (Parser α)) :
    tryEach n (tried.map Prod.fst ++ ps) best c =
      (tryEach n ps (furthestOf best (tried.map Prod.snd)) c).after
        ((tried.map Prod.fst).flatMap fun p => (p c).trace) := by
  induction tried generalizing best with
  | nil => rfl
  | cons x tried ih =>
    obtain ⟨⟨hx, hfatal⟩, hothers⟩ := List.forall_mem_cons.1 h
    rw [List.map_cons, List.cons_append, tryEach_of_error hx hfatal, ih hothers]
    simp only [after, List.flatMap_cons, List.append_assoc]
    rfl

theorem tryEach_of_decides {p : Parser α} (hp : (p c).Decides) (ps : List (Parser α)) :
    tryEach n (p :: ps) best c = p c := by
  cases hr : (p c).result with
  | ok x => exact tryEach_of_ok hr
  | error f => exact tryEach_of_fatal hr (hp f hr)

theorem choice_of_decides (h : Refuses c tried) {p : Parser α} (hp : (p c).Decides)
    (later : List (Parser α)) :
    choice (tried.map Prod.fst ++ p :: later) c =
      (p c).after ((tried.map Prod.fst).flatMap fun q => (q c).trace) := by
  rw [choice, tryEach_of_refuses h, tryEach_of_decides hp]

/-- What a choice reports when no alternative decides. -/
def reported (c : Cursor) (fs : List Failure) : Failure :=
  (furthestOf none fs).getD { expected := "Choice: no alternatives", position := c.position }

theorem choice_of_refuses (h : Refuses c tried) :
    choice (tried.map Prod.fst) c =
      { result := .error (reported c (tried.map Prod.snd))
        trace := (tried.map Prod.fst).flatMap (fun p => (p c).trace) ++
          [.choiceExhausted tried.length c.position (reported c (tried.map Prod.snd))] } := by
  have hrun := @tryEach_of_refuses α tried.length c tried none h []
  rw [List.append_nil] at hrun
  rw [choice, List.length_map, hrun]
  rfl

theorem reported_of_standsFor {f : Failure} {fs : List Failure} (h : StandsFor f fs) (c : Cursor) :
    reported c fs = f := by
  rw [reported, h.furthestOf_eq]
  rfl

theorem Refuses.fatal_of_standsFor (h : Refuses c tried) {f : Failure}
    (hf : StandsFor f (tried.map Prod.snd)) : f.fatal = false := by
  obtain ⟨before, after, hsplit, -, -⟩ := hf.firstFurthest
  have hmem : f ∈ tried.map Prod.snd := by
    rw [hsplit]
    exact List.mem_append_right _ List.mem_cons_self
  obtain ⟨x, hx, rfl⟩ := List.mem_map.1 hmem
  exact (h x hx).2

/-- The failure that a choice reports is that of an alternative, the first furthest. -/
theorem Refuses.alternative_of_firstFurthest (h : Refuses c tried) {f : Failure}
    (hf : FirstFurthest (tried.map Prod.snd) f) :
    ∃ before p after, tried.map Prod.fst = before ++ p :: after ∧ (p c).result = .error f ∧
      (∀ q ∈ before, ∀ g, (q c).result = .error g → g.position < f.position) ∧
      ∀ q ∈ tried.map Prod.fst, ∀ g, (q c).result = .error g → g.position ≤ f.position := by
  obtain ⟨fs, gs, hsplit, hbefore, hall⟩ := hf
  obtain ⟨front, back, rfl, rfl, hback⟩ := List.map_eq_append_iff.1 hsplit
  obtain ⟨x, rest, rfl, rfl, -⟩ := List.map_eq_cons_iff.1 hback
  -- what an alternative fails with is the failure that stands beside it
  have hbeside : ∀ y ∈ front ++ x :: rest, ∀ g, (y.1 c).result = .error g → g = y.2 := by
    intro y hy g hg
    rw [(h y hy).1] at hg
    cases hg
    rfl
  refine ⟨front.map Prod.fst, x.1, rest.map Prod.fst, by simp, (h x (by simp)).1, ?_, ?_⟩
  · intro q hq g hg
    obtain ⟨y, hy, rfl⟩ := List.mem_map.1 hq
    rw [hbeside y (List.mem_append_left _ hy) g hg]
    exact hbefore _ (List.mem_map_of_mem hy)
  · intro q hq g hg
    obtain ⟨y, hy, rfl⟩ := List.mem_map.1 hq
    rw [hbeside y hy g hg]
    exact hall _ (List.mem_map_of_mem hy)

/-! ## Choices of choices -/

/-- A choice among some of the alternatives, in their place, does as they do one by one. -/
theorem result_tryEach_map_choice {m : Nat} {groups : List (List (Parser α))}
    (h : ∀ g ∈ groups, g ≠ []) :
    (tryEach n (groups.map choice) best c).result = (tryEach m groups.flatten best c).result := by
  induction groups generalizing best with
  | nil => rfl
  | cons group groups ih =>
    obtain ⟨hgroup, hothers⟩ := List.forall_mem_cons.1 h
    rw [List.map_cons, List.flatten_cons]
    cases decision c group with
    | @decided tried p later hps ht hp =>
      subst hps
      have hchoice := choice_of_decides ht hp later
      have hdecides : (choice (tried.map Prod.fst ++ p :: later) c).Decides := by
        rw [hchoice]
        exact hp
      rw [tryEach_of_decides hdecides, hchoice, List.append_assoc, List.cons_append,
        tryEach_of_refuses ht, tryEach_of_decides hp]
    | refused tried hps ht =>
      subst hps
      have hne : tried.map Prod.snd ≠ [] := by simpa using hgroup
      obtain ⟨f, hf⟩ := exists_standsFor hne
      have hchoice : (choice (tried.map Prod.fst) c).result = .error f := by
        rw [choice_of_refuses ht, reported_of_standsFor hf]
      rw [tryEach_of_error hchoice (ht.fatal_of_standsFor hf), tryEach_of_refuses ht,
        hf.furthestOf_eq]
      exact ih hothers

end

/-! ## The outcome of a choice -/

/-- **The first alternative that decides is the choice, behind what the refused ones before it told. If
none decides, the choice fails as the first furthest alternative and says so when all of them are
through. Alternatives put together in choices of their own come to the same.** -/
theorem choice_decision (ps : List (Parser α)) (c : Cursor) :
    ((∃ p ∈ ps, (p c).Decides) →
      ∃ before p later, ps = before ++ p :: later ∧ (∀ q ∈ before, ¬ (q c).Decides) ∧
        (p c).Decides ∧ (choice ps c).result = (p c).result ∧
        (choice ps c).trace = before.flatMap (fun q => (q c).trace) ++ (p c).trace ∧
        ∀ others, choice (before ++ p :: others) c = choice ps c) ∧
    ((∀ p ∈ ps, ¬ (p c).Decides) →
      ∃ f, (choice ps c).result = .error f ∧
        (choice ps c).trace = ps.flatMap (fun p => (p c).trace) ++
          [.choiceExhausted ps.length c.position f] ∧
        (ps = [] → f = { expected := "Choice: no alternatives", position := c.position }) ∧
        (ps ≠ [] → ∃ before p after, ps = before ++ p :: after ∧ (p c).result = .error f ∧
          (∀ q ∈ before, ∀ g, (q c).result = .error g → g.position < f.position) ∧
          ∀ q ∈ ps, ∀ g, (q c).result = .error g → g.position ≤ f.position)) ∧
    ∀ groups : List (List (Parser α)), groups.flatten = ps → (∀ group ∈ groups, group ≠ []) →
      (choice (groups.map choice) c).result = (choice ps c).result := by
  refine ⟨?_, ?_, ?_⟩
  · rintro ⟨p, hp, hdecides⟩
    cases decision c ps with
    | @decided tried q later hps ht hq =>
      subst hps
      have hrun := choice_of_decides ht hq
      refine ⟨_, q, later, rfl, ht.not_decides, hq, ?_, ?_, fun others => ?_⟩
      · rw [hrun]
        rfl
      · rw [hrun]
        rfl
      · rw [hrun, hrun]
    | refused tried hps ht =>
      rw [hps] at hp
      exact absurd hdecides (ht.not_decides p hp)
  · intro hnone
    cases decision c ps with
    | @decided tried q later hps ht hq =>
      subst hps
      exact absurd hq (hnone q (List.mem_append_right _ List.mem_cons_self))
    | refused tried hps ht =>
      subst hps
      have hrun := choice_of_refuses ht
      refine ⟨_, congrArg Run.result hrun, ?_, ?_, ?_⟩
      · rw [List.length_map]
        exact congrArg Run.trace hrun
      · intro hnil
        rw [List.map_eq_nil_iff.1 hnil]
        rfl
      · intro hne
        have hne' : tried.map Prod.snd ≠ [] := by simpa using hne
        obtain ⟨f, hf⟩ := exists_standsFor hne'
        rw [reported_of_standsFor hf]
        exact ht.alternative_of_firstFurthest hf.firstFurthest
  · rintro groups rfl hgroups
    exact result_tryEach_map_choice hgroups

/-- The second and the third alternative fail behind the `a`. -/
theorem choice_decision_tie :
    ∃ f, (choice [literal "x", followedBy (literal "a") (literal "c"),
          followedBy (literal "a") (literal "d")] (Cursor.atStart "ab")).result = .error f ∧
      f = { expected := "c", position := 1 } ∧
      (choice [literal "x", followedBy (literal "a") (literal "c"),
        followedBy (literal "a") (literal "d")] (Cursor.atStart "ab")).trace =
          [.choiceExhausted 3 0 f] ∧
      (choice [choice [literal "x", followedBy (literal "a") (literal "c")],
        choice [followedBy (literal "a") (literal "d")]] (Cursor.atStart "ab")).result =
          .error f := by
  obtain ⟨-, hrefused, hgroups⟩ := choice_decision [literal "x",
    followedBy (literal "a") (literal "c"), followedBy (literal "a") (literal "d")]
    (Cursor.atStart "ab")
  have hnone : ∀ p ∈ [literal "x", followedBy (literal "a") (literal "c"),
      followedBy (literal "a") (literal "d")], ¬ (p (Cursor.atStart "ab")).Decides := by
    simp only [List.forall_mem_cons]
    exact ⟨not_decides_of_error rfl rfl, not_decides_of_error rfl rfl,
      not_decides_of_error rfl rfl, fun _ h => nomatch h⟩
  obtain ⟨f, hf, htrace, -, -⟩ := hrefused hnone
  have hexpected : f = { expected := "c", position := 1 } := by
    cases hf
    rfl
  refine ⟨f, hf, hexpected, htrace, ?_⟩
  rw [← hf]
  exact hgroups [[literal "x", followedBy (literal "a") (literal "c")],
    [followedBy (literal "a") (literal "d")]] rfl (by simp)

end Parser

end Descent
