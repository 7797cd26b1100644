import Descent.Parser.Recursion
import Descent.Proofs.Repetition

/-!
# What happens in a run, in order

The constructs run their parts one after the other, and how one part ended decides which is next. A
history writes down what happens on the way, as a list of moments of any kind: given what happens in
the runs of the parts, each construct has one way to put it together.

* `Run.onwards` : what happens after a run that succeeded; with it every sequence;
* `tryHistory`, `loopHistory`, `fixHistory` : the same for choices, for loops and for rules that refer
  to themselves;
* `Tells sel f p h` : what `p` tells, as far as `sel` takes note of it, is what `f` makes of the
  moments of `h`. The constructs hand this on (`tells_both`, `tells_loop` and so on), so a history
  leaves out nothing that is told, adds nothing and keeps the order.
-/

namespace Descent

universe u v

variable {α β γ : Type} {M : Type u} {X : Type v}

/-! ## Putting histories together -/

/-- What happens from the end of a run on, if it succeeded. -/
def Run.onwards (r : Run α) (next : Cursor → List M) : List M :=
  match r.result with
  | .ok (_, c) => next c
  | .error _ => []

theorem Run.onwards_of_ok {r : Run α} {a : α} {c : Cursor} (h : r.result = .ok (a, c))
    (next : Cursor → List M) : r.onwards next = next c := by
  simp only [onwards, h]

/-- Nothing happens after a run if nothing happens wherever it ends. -/
@[simp] theorem Run.onwards_nil (r : Run α) : r.onwards (fun _ => ([] : List M)) = [] := by
  unfold onwards
  split <;> rfl

theorem Run.onwards_of_error {r : Run α} {f : Failure} (h : r.result = .error f)
    (next : Cursor → List M) : r.onwards next = [] := by
  simp only [onwards, h]

namespace Parser

/-- A choice between parsers, each with the history of its runs. When no alternative is left, `last`
is what happens. -/
def tryHistory (last : Option Failure → List M) (c : Cursor) :
    List (Parser α × (Cursor → List M)) → Option Failure → List M
  | [], best => last best
  | (p, h) :: rest, best =>
    match (p c).result with
    | .ok _ => h c
    | .error f =>
      if f.fatal then h c else h c ++ tryHistory last c rest (some (furthest best f))

section
variable {last : Option Failure → List M} {c : Cursor} {p : Parser α} {h : Cursor → List M}
  {rest : List (Parser α × (Cursor → List M))} {best : Option Failure}

theorem tryHistory_of_ok {found : α × Cursor} (hr : (p c).result = .ok found) :
    tryHistory last c ((p, h) :: rest) best = h c := by
  simp only [tryHistory, hr]

theorem tryHistory_of_fatal {f : Failure} (hr : (p c).result = .error f) (hf : f.fatal = true) :
    tryHistory last c ((p, h) :: rest) best = h c := by
  simp only [tryHistory, hr, hf, if_true]

theorem tryHistory_of_error {f : Failure} (hr : (p c).result = .error f) (hf : f.fatal = false) :
    tryHistory last c ((p, h) :: rest) best =
      h c ++ tryHistory last c rest (some (furthest best f)) := by
  simp only [tryHistory, hr, hf, Bool.false_eq_true, if_false]

end

/-- What happens in a loop, when `happens s` does in the pass that begins in the state `s`. If the loop
never ends, it is `never`. -/
def loopHistory {σ τ : Type} (never : List M) (body : σ → Pass σ τ) (happens : σ → List M) (s : σ) :
    List M :=
  match passes body s with
  | some states => states.flatMap happens
  | none => never

section
variable {σ τ : Type} {never : List M} {body : σ → Pass σ τ} {s : σ} {t : τ} {states : List σ}

theorem loopHistory_of_runs (hr : Runs body s states t) (happens : σ → List M) :
    loopHistory never body happens s = states.flatMap happens := by
  simp only [loopHistory, hr.passes_eq]

theorem loopHistory_of_endless (h : loop body s = none) (happens : σ → List M) :
    loopHistory never body happens s = never := by
  simp only [loopHistory, passes_eq_none_iff.2 (loop_eq_none_iff.1 h)]

end

/-- What happens in a round over `run`, when `h` does in the run itself, and `stalled` after a success
that went nowhere. -/
def roundHistory (stalled : Nat → List M) (run : Bool → Parser α) (h : Bool → Cursor → List M)
    (s : Collected α) : List M :=
  h s.elements.isEmpty s.cursor ++ (run s.elements.isEmpty s.cursor).onwards fun d =>
    if d.position = s.cursor.position then stalled s.cursor.position else []

/-- A repetition of `p`, where `h` is what happens in a round. -/
def repeatHistory (never : Cursor → List M) (stalled : Nat → List M) (p : Parser α)
    (h : Cursor → List M) (c : Cursor) : List M :=
  loopHistory (never c) (repeatRound p) (roundHistory stalled (fun _ => p) fun _ => h) (.start c)

/-- An element of a list, where `h` is what happens for it and `hs` for the separator before it. -/
def elementHistory (separator : Parser β) (hs h : Cursor → List M) (first : Bool) (c : Cursor) :
    List M :=
  if first then h c else hs c ++ (separator c).onwards h

/-- A list of `p`, where `h` is what happens for an element and `hs` for a separator. -/
def listHistory (never : Cursor → List M) (separator : Parser β) (hs : Cursor → List M)
    (p : Parser α) (h : Cursor → List M) (c : Cursor) : List M :=
  loopHistory (never c) (listRound separator p)
    (fun s => elementHistory separator hs h s.elements.isEmpty s.cursor) (.start c)

/-- The parser that `rule` defines, where `h` is what happens in a run of the rule, given a parser for
the places where it refers to itself and what happens there. -/
def fixHistory (rule : Parser α → Parser α)
    (h : Parser α → (Cursor → List M) → Cursor → List M) (c : Cursor) : List M :=
  h (fun d => if d.ahead.length < c.ahead.length then fix rule d else stuck d)
    (fun d => if d.ahead.length < c.ahead.length then fixHistory rule h d else []) c
termination_by c.ahead.length

/-! ## What is told -/

/-- What the runs of `p` tell, in the part that `sel` selects, is what their histories say. -/
def Tells (sel : Event → Option X) (f : M → List X) (p : Parser α) (h : Cursor → List M) : Prop :=
  ∀ c, (p c).trace.filterMap sel = (h c).flatMap f

variable {sel : Event → Option X} {f : M → List X}

theorem tells_literal (s : String) : Tells sel f (literal s) fun _ => [] := fun _ => rfl

theorem tells_descend : Tells sel f descend fun _ => [] := fun _ => rfl

theorem trace_andThen (r : Run α) (next : α → Cursor → Run β) :
    (∃ a c, r.result = .ok (a, c) ∧ (r.andThen next).trace = r.trace ++ (next a c).trace) ∨
      (∃ g, r.result = .error g ∧ (r.andThen next).trace = r.trace) := by
  cases hr : r.result with
  | ok found =>
    rw [Run.andThen_of_ok hr]
    exact .inl ⟨found.1, found.2, rfl, rfl⟩
  | error g =>
    rw [Run.andThen_of_error hr]
    exact .inr ⟨g, rfl, rfl⟩

theorem tells_andThen {p : Parser α} {q : α → Parser β} {h k : Cursor → List M}
    (hp : Tells sel f p h) (hq : ∀ a, Tells sel f (q a) k) :
    Tells sel f (fun c => (p c).andThen q) fun c => h c ++ (p c).onwards k := by
  intro c
  dsimp only
  rcases trace_andThen (p c) q with ⟨a, d, hr, ht⟩ | ⟨g, hr, ht⟩
  · rw [ht, Run.onwards_of_ok hr, List.filterMap_append, List.flatMap_append, hp c, hq a d]
  · rw [ht, Run.onwards_of_error hr, List.append_nil, hp c]

theorem tells_map {p : Parser α} {h : Cursor → List M} (hp : Tells sel f p h) (g : α → β) :
    Tells sel f (p.map g) h :=
  hp

theorem tells_both {p : Parser α} {q : Parser β} {h k : Cursor → List M} (hp : Tells sel f p h)
    (hq : Tells sel f q k) : Tells sel f (both p q) fun c => h c ++ (p c).onwards k :=
  tells_andThen hp fun _ => tells_map hq _

theorem tells_followedBy {left : Parser α} {main : Parser β} {h k : Cursor → List M}
    (hl : Tells sel f left h) (hm : Tells sel f main k) :
    Tells sel f (followedBy left main) fun c => h c ++ (left c).onwards k :=
  tells_andThen hl fun _ => hm

theorem tells_bracket {opening : Parser α} {content : Parser β} {closing : Parser γ}
    {ho hc hl : Cursor → List M} (hopening : Tells sel f opening ho)
    (hcontent : Tells sel f content hc) (hclosing : Tells sel f closing hl) :
    Tells sel f (bracket opening content closing) fun c =>
      ho c ++ (opening c).onwards fun d => hc d ++ (content d).onwards hl := by
  have hinner : Tells sel f (fun d => (content d).andThen fun b e => (closing e).map fun _ => b)
      fun d => hc d ++ (content d).onwards hl :=
    tells_andThen hcontent fun _ => tells_map hclosing _
  exact tells_andThen hopening fun _ => hinner

theorem tells_nested {p : Parser α} {h k : Cursor → List M} (hd : Tells sel f descend k)
    (hp : Tells sel f p h) : Tells sel f (nested p) fun c => k c ++ (descend c).onwards h := by
  -- coming back up tells nothing
  refine tells_andThen hd fun _ c => ?_
  rcases trace_andThen (p c) fun a d => .succeed a d.ascend with ⟨a, d, -, ht⟩ | ⟨g, -, ht⟩
  · rw [ht, ← hp c]
    simp [Run.succeed, Run.silent]
  · rw [ht, hp c]

theorem tells_tryEach {n : Nat} {c : Cursor} {last : Option Failure → List M}
    (hlast : ∀ best, (exhausted (α := α) n best c).trace.filterMap sel = (last best).flatMap f)
    {ps : List (Parser α × (Cursor → List M))} (hps : ∀ x ∈ ps, Tells sel f x.1 x.2)
    (best : Option Failure) :
    (tryEach n (ps.map Prod.fst) best c).trace.filterMap sel =
      (tryHistory last c ps best).flatMap f := by
  induction ps generalizing best with
  | nil => exact hlast best
  | cons x ps ih =>
    obtain ⟨p, h⟩ := x
    obtain ⟨hp, hrest⟩ := List.forall_mem_cons.1 hps
    rw [List.map_cons]
    cases hr : (p c).result with
    | ok found =>
      rw [tryEach_of_ok hr, tryHistory_of_ok hr]
      exact hp c
    | error g =>
      cases hg : g.fatal with
      | true =>
        rw [tryEach_of_fatal hr hg, tryHistory_of_fatal hr hg]
        exact hp c
      | false =>
        rw [tryEach_of_error hr hg, tryHistory_of_error hr hg, List.flatMap_append, ← hp c,
          ← ih hrest]
        exact List.filterMap_append

theorem roundHistory_of_ok {stalled : Nat → List M} {run : Bool → Parser α}
    {h : Bool → Cursor → List M} {s : Collected α} {a : α} {d : Cursor}
    (hr : (run s.elements.isEmpty s.cursor).result = .ok (a, d)) :
    roundHistory stalled run h s = h s.elements.isEmpty s.cursor ++
      if d.position = s.cursor.position then stalled s.cursor.position else [] := by
  rw [roundHistory, Run.onwards_of_ok hr]

theorem roundHistory_of_error {stalled : Nat → List M} {run : Bool → Parser α}
    {h : Bool → Cursor → List M} {s : Collected α} {g : Failure}
    (hr : (run s.elements.isEmpty s.cursor).result = .error g) :
    roundHistory stalled run h s = h s.elements.isEmpty s.cursor := by
  rw [roundHistory, Run.onwards_of_error hr, List.append_nil]

/-- Where nothing is told of a success that went nowhere, a round is what happens in it. -/
theorem roundHistory_silent (run : Bool → Parser α) (h : Bool → Cursor → List M) (s : Collected α) :
    roundHistory (fun _ => []) run h s = h s.elements.isEmpty s.cursor := by
  simp only [roundHistory, ite_self, Run.onwards_nil, List.append_nil]

/-- A round of a list is what happens for its element. -/
theorem elementHistory_eq (separator : Parser β) (hs : Cursor → List M) (p : Parser α)
    (h : Cursor → List M) :
    (fun s : Collected α => elementHistory separator hs h s.elements.isEmpty s.cursor) =
      roundHistory (fun _ => []) (elementOf separator p) (elementHistory separator hs h) :=
  funext fun s => (roundHistory_silent _ _ s).symm

theorem tells_rounds {stalled : Nat → Trace} {stalled' : Nat → List M} {run : Bool → Parser α}
    {h : Bool → Cursor → List M} (hrun : ∀ first, Tells sel f (run first) (h first))
    (hs : ∀ n, (stalled n).filterMap sel = (stalled' n).flatMap f) {s : Collected α}
    {states : List (Collected α)} {t : Run (List α)}
    (hr : Runs (roundOf stalled run) s states t) :
    t.trace.filterMap sel = s.told.toList.filterMap sel ++
      (states.flatMap (roundHistory stalled' run h)).flatMap f := by
  induction hr with
  | @done s t hround =>
    rw [List.flatMap_singleton]
    rcases roundOf_done hround with ⟨a, d, hr, hd, rfl⟩ | ⟨g, hr, rfl⟩
    · rw [roundHistory_of_ok hr, if_pos hd, List.flatMap_append, ← hs, ← hrun, List.append_assoc,
        List.filterMap_append, List.filterMap_append]
    · rw [roundHistory_of_error hr, ← hrun, List.filterMap_append]
  | again hround _ ih =>
    obtain ⟨a, d, hr, hd, rfl⟩ := roundOf_again hround
    rw [ih, List.flatMap_cons, roundHistory_of_ok hr, if_neg hd, List.append_nil,
      List.flatMap_append, ← hrun, Array.toList_appendList, List.filterMap_append, List.append_assoc]

/-- An endless loop tells nothing. -/
theorem tells_loop {stalled : Nat → Trace} {stalled' : Nat → List M} {run : Bool → Parser α}
    {h : Bool → Cursor → List M} (hrun : ∀ first, Tells sel f (run first) (h first))
    (hs : ∀ n, (stalled n).filterMap sel = (stalled' n).flatMap f) {never : Cursor → List M}
    (hnever : ∀ c, (never c).flatMap f = []) :
    Tells sel f (fun c => (loop (roundOf stalled run) (.start c)).getD (endless c)) fun c =>
      loopHistory (never c) (roundOf stalled run) (roundHistory stalled' run h) (.start c) := by
  intro c
  dsimp only
  cases hl : loop (roundOf stalled run) (.start c) with
  | some t =>
    obtain ⟨states, hr⟩ := loop_eq_some_iff.1 hl
    rw [loopHistory_of_runs hr, Option.getD_some, tells_rounds hrun hs hr]
    rfl
  | none =>
    rw [loopHistory_of_endless hl, hnever c]
    rfl

theorem tells_repeated {never : Cursor → List M} (hnever : ∀ c, (never c).flatMap f = [])
    {stalled : Nat → List M}
    (hs : ∀ n, [Event.repeatStalled n].filterMap sel = (stalled n).flatMap f) {p : Parser α}
    {h : Cursor → List M} (hp : Tells sel f p h) :
    Tells sel f (repeated p) (repeatHistory never stalled p h) := by
  unfold repeated repeatHistory
  rw [repeatRound_eq]
  exact tells_loop (fun _ => hp) hs hnever

theorem tells_separatedList {never : Cursor → List M} (hnever : ∀ c, (never c).flatMap f = [])
    {separator : Parser β} {hs : Cursor → List M} (hseparator : Tells sel f separator hs) {p : Parser α}
    {h : Cursor → List M} (hp : Tells sel f p h) :
    Tells sel f (separatedList separator p) (listHistory never separator hs p h) := by
  have hrun : ∀ first, Tells sel f (elementOf separator p first)
      (elementHistory separator hs h first)
    | true => hp
    | false => tells_followedBy hseparator hp
  unfold separatedList listHistory
  rw [listRound_eq, elementHistory_eq]
  exact tells_loop hrun (fun _ => rfl) hnever

/-- What a rule that refers to itself tells, if it hands on what the places where it does so tell. -/
theorem tells_fix {rule : Parser α → Parser α}
    {h : Parser α → (Cursor → List M) → Cursor → List M}
    (step : ∀ p k, Tells sel f p k → Tells sel f (rule p) (h p k)) :
    Tells sel f (fix rule) (fixHistory rule h) := by
  intro c
  induction hn : c.ahead.length using Nat.strongRecOn generalizing c with
  | ind n ih =>
    subst hn
    rw [fix, fixHistory]
    refine step _ _ (fun d => ?_) c
    split
    · next hd => exact ih _ hd d rfl
    · rfl

/-! ## Every moment -/

section
variable {P : M → Prop}

theorem forall_mem_onwards {r : Run α} {next : Cursor → List M} (h : ∀ c, ∀ m ∈ next c, P m) :
    ∀ m ∈ r.onwards next, P m := by
  unfold Run.onwards
  split
  · exact h _
  · exact fun _ hm => nomatch hm

theorem forall_mem_tryHistory {last : Option Failure → List M} {c : Cursor}
    (hlast : ∀ best, ∀ m ∈ last best, P m) {ps : List (Parser α × (Cursor → List M))}
    (hps : ∀ x ∈ ps, ∀ m ∈ x.2 c, P m) (best : Option Failure) :
    ∀ m ∈ tryHistory last c ps best, P m := by
  induction ps generalizing best with
  | nil => exact hlast best
  | cons x ps ih =>
    obtain ⟨hx, hrest⟩ := List.forall_mem_cons.1 hps
    simp only [tryHistory]
    split
    · exact hx
    · split
      · exact hx
      · exact List.forall_mem_append.2 ⟨hx, ih hrest _⟩

theorem forall_mem_loopHistory {σ τ : Type} {never : List M} {body : σ → Pass σ τ} {s : σ}
    (hnever : loop body s = none → ∀ m ∈ never, P m) {happens : σ → List M}
    (hh : ∀ s, ∀ m ∈ happens s, P m) : ∀ m ∈ loopHistory never body happens s, P m := by
  cases hl : loop body s with
  | some t =>
    obtain ⟨states, hr⟩ := loop_eq_some_iff.1 hl
    rw [loopHistory_of_runs hr]
    exact List.forall_mem_flatMap.2 fun s _ => hh s
  | none =>
    rw [loopHistory_of_endless hl]
    exact hnever hl

theorem forall_mem_repeatHistory {p : Parser α} {never : Cursor → List M} {c : Cursor}
    (hnever : loop (repeatRound p) (.start c) = none → ∀ m ∈ never c, P m) {stalled : Nat → List M}
    (hs : ∀ n, ∀ m ∈ stalled n, P m) {h : Cursor → List M} (hh : ∀ c, ∀ m ∈ h c, P m) :
    ∀ m ∈ repeatHistory never stalled p h c, P m := by
  refine forall_mem_loopHistory hnever fun s => ?_
  refine List.forall_mem_append.2 ⟨hh s.cursor, forall_mem_onwards fun d => ?_⟩
  split
  · exact hs _
  · exact fun _ hm => nomatch hm

theorem forall_mem_listHistory {separator : Parser β} {p : Parser α} {never : Cursor → List M}
    {c : Cursor} (hnever : loop (listRound separator p) (.start c) = none → ∀ m ∈ never c, P m)
    {hs : Cursor → List M} (hhs : ∀ c, ∀ m ∈ hs c, P m) {h : Cursor → List M}
    (hh : ∀ c, ∀ m ∈ h c, P m) : ∀ m ∈ listHistory never separator hs p h c, P m := by
  refine forall_mem_loopHistory hnever fun s => ?_
  unfold elementHistory
  split
  · exact hh s.cursor
  · exact List.forall_mem_append.2 ⟨hhs s.cursor, forall_mem_onwards hh⟩

end

end Parser

end Descent
