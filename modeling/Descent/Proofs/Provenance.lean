import Descent.Proofs.Visit

/-!
# Where failures come from

A failure of a leaf goes up the tree from node to node, and `Turn.passOn` says what each node does to
it: lists drop it unless it is fatal, brackets and the like put their name in front unless it is
fatal, and all others leave it alone. Hence a failure of the whole is the failure of one leaf, named
by the nodes above it; and once a leaf has failed fatally nothing else happens
(`failure_provenance`).

* `Failure.through path f` : what is left of the failure at the top of the way;
* `Explains`, `Accounts` : a history with a leaf whose failure comes to the failure of the whole, and
  without anything behind a fatal one. Every construct hands this on (`accounts_history`).
-/

namespace Descent

/-! ## On the way up -/

namespace Turn

/-- The name that the node puts in front of what was expected. -/
def name : Turn → Option String
  | .opening | .content | .closing => some "Bracket"
  | .left | .main => some "DiscardLeft"
  | _ => none

/-- The node is a repetition or a separated list. -/
def inList : Turn → Bool
  | .round | .separator | .element => true
  | _ => false

/-- What the node makes of a failure of that part. -/
def passOn (turn : Turn) (f : Failure) : Option Failure :=
  if turn.inList && !f.fatal then none
  else match turn.name with
    | some name => some (f.inside name)
    | none => some f

theorem passOn_of_fatal {f : Failure} (h : f.fatal = true) (turn : Turn) :
    turn.passOn f = some f := by
  cases turn <;> simp [passOn, name, h, Failure.inside_of_fatal]

end Turn

/-- What a list passes on of the failures of its elements and separators. -/
def Failure.onlyFatal (f : Failure) : Option Failure := if f.fatal then some f else none

/-- What is left of a failure at the top of the way that it has come up. -/
def Failure.through (path : List Turn) (f : Failure) : Option Failure :=
  path.foldr (fun turn passed => passed.bind turn.passOn) (some f)

/-- `expected` with the names of the nodes on the way in front of it, the outermost first. -/
def namedBy (path : List Turn) (expected : String) : String :=
  (path.filterMap Turn.name).foldr (fun name rest => name ++ ": " ++ rest) expected

theorem Failure.through_of_fatal {g : Failure} (hg : g.fatal = true) (path : List Turn) :
    g.through path = some g := by
  induction path with
  | nil => rfl
  | cons turn path ih =>
    show (g.through path).bind turn.passOn = some g
    rw [ih]
    exact Turn.passOn_of_fatal hg turn

/-- Going up, a failure that is not fatal comes through no list, and all that changes are the names
in front. -/
theorem Failure.through_of_not_fatal {g f : Failure} (hg : g.fatal = false) {path : List Turn}
    (h : g.through path = some f) :
    f = { g with expected := namedBy path g.expected } ∧ ∀ turn ∈ path, turn.inList = false := by
  induction path generalizing f with
  | nil =>
    cases h
    exact ⟨rfl, fun _ h => nomatch h⟩
  | cons turn path ih =>
    obtain ⟨f', hf', hpass⟩ := Option.bind_eq_some_iff.1 h
    obtain ⟨rfl, hpath⟩ := ih hf'
    have hlist : turn.inList = false := by
      cases hlist : turn.inList with
      | false => rfl
      | true =>
        rw [Turn.passOn, hlist, hg] at hpass
        cases hpass
    refine ⟨?_, List.forall_mem_cons.2 ⟨hlist, hpath⟩⟩
    rw [Turn.passOn, hlist] at hpass
    cases hname : turn.name with
    | none =>
      simp only [hname, Bool.false_and, Bool.false_eq_true, if_false] at hpass
      cases hpass
      simp [namedBy, hname]
    | some name =>
      simp only [hname, Bool.false_and, Bool.false_eq_true, if_false] at hpass
      cases hpass
      simp [namedBy, hname, Failure.inside, hg]

/-! ## Accounting for failures -/

/-- The failure that a run came to, if any. -/
def Run.failure? {α : Type} (r : Run α) : Option Failure :=
  match r.result with
  | .ok _ => none
  | .error f => some f

/-- No leaf fails fatally. -/
def Calm (h : List Moment) : Prop := ∀ v g, .visit v ∈ h → v.Fails g → g.fatal = false

/-- The failure `f` is what is left of the failure of a leaf. -/
def Explains (h : List Moment) (f : Failure) : Prop :=
  ∃ v g, .visit v ∈ h ∧ v.Fails g ∧ g.through v.path = some f

/-- A failure is explained by a leaf, and after a leaf has failed fatally with it nothing happens. -/
structure Accounts (h : List Moment) (failure : Option Failure) : Prop where
  explains : ∀ f, failure = some f → Explains h f
  stops : ∀ before v after g, h = before ++ .visit v :: after → v.Fails g → g.fatal = true →
    after = [] ∧ failure = some g

section
variable {α β γ : Type} {h h' : List Moment} {failure : Option Failure}

theorem Run.failure?_of_ok {r : Run α} {x : α × Cursor} (hr : r.result = .ok x) :
    r.failure? = none := by
  simp only [failure?, hr]

theorem Run.failure?_of_error {r : Run α} {f : Failure} (hr : r.result = .error f) :
    r.failure? = some f := by
  simp only [failure?, hr]

theorem Run.failure?_eq_some {r : Run α} {f : Failure} :
    r.failure? = some f ↔ r.result = .error f := by
  cases hr : r.result with
  | ok x => simp [failure?_of_ok hr]
  | error g => simp [failure?_of_error hr]

theorem Run.failure?_map (r : Run α) (g : α → β) : (r.map g).failure? = r.failure? := by
  cases hr : r.result with
  | ok x => rw [failure?_of_ok hr, failure?_of_ok (map_ok.2 ⟨x.1, hr, rfl⟩)]
  | error f => rw [failure?_of_error hr, failure?_of_error (map_error.2 hr)]

theorem Run.failure?_mapFailure (r : Run α) (g : Failure → Failure) :
    (r.mapFailure g).failure? = r.failure?.map g := by
  cases hr : r.result with
  | ok x =>
    rw [mapFailure_of_ok hr, failure?_of_ok hr]
    rfl
  | error f =>
    rw [mapFailure_of_error hr, failure?_of_error hr]
    rfl

/-- Going on with a success is no failure. -/
theorem Run.failure?_andThen_succeed (r : Run α) (g : Cursor → Cursor) :
    (r.andThen fun a c => .succeed a (g c)).failure? = r.failure? := by
  cases hr : r.result with
  | ok x => rw [failure?_of_ok hr, failure?_of_ok (andThen_ok.2 ⟨x.1, x.2, hr, rfl⟩)]
  | error f => rw [failure?_of_error hr, failure?_of_error (andThen_error.2 (.inl hr))]

theorem Accounts.calm (ha : Accounts h failure) (hf : ∀ f, failure = some f → f.fatal = false) :
    Calm h := by
  intro v g hv hg
  obtain ⟨before, after, rfl⟩ := List.append_of_mem hv
  cases hfatal : g.fatal with
  | false => rfl
  | true =>
    obtain ⟨-, hfailure⟩ := ha.stops before v after g rfl hg hfatal
    exact hfatal.symm.trans (hf g hfailure)

/-- A run that comes to no failure of its own is calm. -/
theorem Accounts.calm_of_none (ha : Accounts h none) : Calm h := ha.calm fun _ hf => nomatch hf

theorem Explains.mono {f : Failure} (hf : Explains h f) (hsub : h ⊆ h') : Explains h' f := by
  obtain ⟨v, g, hv, hg⟩ := hf
  exact ⟨v, g, hsub hv, hg⟩

theorem Calm.append (hh : Calm h) (hh' : Calm h') : Calm (h ++ h') := by
  intro v g hv
  rcases List.mem_append.1 hv with hv | hv
  · exact hh v g hv
  · exact hh' v g hv

theorem Calm.accounts (hh : Calm h) (he : ∀ f, failure = some f → Explains h f) :
    Accounts h failure := by
  refine ⟨he, fun before v after g hsplit hg hfatal => ?_⟩
  have hcalm := hh v g (by simp [hsplit]) hg
  rw [hfatal] at hcalm
  cases hcalm

theorem Calm.accounts_none (hh : Calm h) : Accounts h none := hh.accounts fun _ hf => nomatch hf

/-- What happens before does not matter, as long as no leaf fails fatally. -/
theorem Accounts.append (hh : Calm h) (ha : Accounts h' failure) : Accounts (h ++ h') failure := by
  refine ⟨fun f hf => (ha.explains f hf).mono (List.subset_append_right _ _), ?_⟩
  intro before v after g hsplit hg hfatal
  rcases List.append_eq_append_iff.1 hsplit with ⟨more, -, hmore⟩ | ⟨more, hbefore, hmore⟩
  · exact ha.stops more v after g hmore hg hfatal
  · cases more with
    | nil => exact ha.stops [] v after g hmore.symm hg hfatal
    | cons m more =>
      -- then the visit is among what happens before
      cases hmore
      have hcalm := hh v g (by simp [hbefore]) hg
      rw [hfatal] at hcalm
      cases hcalm

/-- What a part accounts for, its node accounts for as far as it passes it on. -/
theorem Accounts.inPart {p : Cursor → List Moment} {c : Cursor} (ha : Accounts (p c) failure)
    (turn : Turn) : Accounts (Tree.inPart turn p c) (failure.bind turn.passOn) := by
  constructor
  · intro f hf
    obtain ⟨f', rfl, hpass⟩ := Option.bind_eq_some_iff.1 hf
    obtain ⟨v, g, hv, hg, hthrough⟩ := ha.explains f' rfl
    refine ⟨{ v with path := turn :: v.path }, g, List.mem_map_of_mem hv, hg, ?_⟩
    show (g.through v.path).bind turn.passOn = some f
    rw [hthrough]
    exact hpass
  · intro before v after g hsplit hg hfatal
    obtain ⟨before', rest, hp, -, hrest⟩ := List.map_eq_append_iff.1 hsplit
    obtain ⟨m, after', rfl, hm, rfl⟩ := List.map_eq_cons_iff.1 hrest
    cases m with
    | event e => cases hm
    | visit v' =>
      cases hm
      obtain ⟨rfl, rfl⟩ := ha.stops before' v' after' g hp hg hfatal
      exact ⟨rfl, Turn.passOn_of_fatal hfatal turn⟩

theorem Accounts.inList {p : Cursor → List Moment} {c : Cursor} (ha : Accounts (p c) failure)
    (turn : Turn) (ht : turn.inList = true) :
    Accounts (Tree.inPart turn p c) (failure.bind Failure.onlyFatal) := by
  have hpass : turn.passOn = Failure.onlyFatal := by
    funext f
    cases turn with
    | round | separator | element =>
      cases hf : f.fatal <;> simp [Turn.passOn, Turn.inList, Turn.name, Failure.onlyFatal, hf]
    | _ => cases ht
  rw [← hpass]
  exact ha.inPart turn

theorem Accounts.named {p : Cursor → List Moment} {c : Cursor} (ha : Accounts (p c) failure)
    (turn : Turn) {name : String} (ht : turn.inList = false) (hname : turn.name = some name) :
    Accounts (Tree.inPart turn p c) (failure.bind fun f => some (f.inside name)) := by
  have hpass : turn.passOn = fun f => some (f.inside name) := by
    funext f
    simp [Turn.passOn, ht, hname]
  rw [← hpass]
  exact ha.inPart turn

theorem Accounts.plain {p : Cursor → List Moment} {c : Cursor} (ha : Accounts (p c) failure)
    (turn : Turn) (ht : turn.inList = false) (hname : turn.name = none) :
    Accounts (Tree.inPart turn p c) failure := by
  have hpass : turn.passOn = some := by
    funext f
    simp [Turn.passOn, ht, hname]
  have hpart := ha.inPart turn
  rwa [hpass, Option.bind_fun_some] at hpart

theorem accounts_leaf (p : Parser α) (c : Cursor) :
    Accounts [.visit ⟨[], p, c⟩] (p c).failure? := by
  constructor
  · intro f hf
    refine ⟨⟨[], p, c⟩, f, List.mem_singleton.2 rfl, ?_, rfl⟩
    exact Run.failure?_eq_some.1 hf
  · intro before v after g hsplit hg hfatal
    obtain ⟨-, hv⟩ | ⟨-, hv⟩ := List.singleton_eq_append_iff.1 hsplit
    · cases hv
      exact ⟨rfl, Run.failure?_of_error hg⟩
    · cases hv

/-! ## Constructs account for their failures -/

/-- Two runs of which the second follows a success. Failures of both come to `φ` of them. -/
theorem accounts_andThen {φ : Failure → Option Failure} {r : Run α} {next : α → Cursor → Run β}
    {k : Cursor → List Moment} (hr : Accounts h (r.failure?.bind φ))
    (hnext : ∀ a d, Accounts (k d) ((next a d).failure?.bind φ)) :
    Accounts (h ++ r.onwards k) ((r.andThen next).failure?.bind φ) := by
  cases hresult : r.result with
  | ok found =>
    rw [Run.onwards_of_ok hresult, Run.andThen_of_ok hresult]
    rw [Run.failure?_of_ok hresult] at hr
    exact Accounts.append hr.calm_of_none (hnext found.1 found.2)
  | error f =>
    rw [Run.onwards_of_error hresult, Run.andThen_of_error hresult, List.append_nil]
    rw [Run.failure?_of_error hresult] at hr
    exact hr

theorem accounts_followed {r : Run α} {next : α → Cursor → Run β} {k : Cursor → List Moment}
    (hr : Accounts h r.failure?) (hnext : ∀ a d, Accounts (k d) (next a d).failure?) :
    Accounts (h ++ r.onwards k) (r.andThen next).failure? := by
  rw [← Option.bind_fun_some r.failure?] at hr
  rw [← Option.bind_fun_some (r.andThen next).failure?]
  refine accounts_andThen hr fun a d => ?_
  rw [Option.bind_fun_some]
  exact hnext a d

theorem accounts_tryHistory {n : Nat} {c : Cursor} {ps : List (Parser α × (Cursor → List Moment))}
    (hps : ∀ x ∈ ps, Accounts (x.2 c) (x.1 c).failure?) {before : List Moment} (hb : Calm before)
    {best : Option Failure} (hbest : ∀ g, best = some g → g.fatal = false ∧ Explains before g)
    (hsome : ps = [] → best ≠ none) :
    Accounts
      (before ++ Parser.tryHistory
        (fun best => (Parser.exhausted n best c : Run α).trace.map .event) c ps best)
      (Parser.tryEach n (ps.map Prod.fst) best c).failure? := by
  induction ps generalizing before best with
  | nil =>
    obtain ⟨g, rfl⟩ := Option.ne_none_iff_exists'.1 (hsome rfl)
    obtain ⟨-, hg⟩ := hbest g rfl
    have hend : Calm [.event (.choiceExhausted n c.position g)] := fun v _ hv => by simp at hv
    refine (hb.append hend).accounts fun f hf => ?_
    cases hf
    exact hg.mono (List.subset_append_left _ _)
  | cons x ps ih =>
    obtain ⟨p, k⟩ := x
    obtain ⟨hx, hrest⟩ := List.forall_mem_cons.1 hps
    rw [List.map_cons]
    cases hr : (p c).result with
    | ok found =>
      rw [Parser.tryEach_of_ok hr, Parser.tryHistory_of_ok hr]
      exact hx.append hb
    | error f =>
      have hfailure := Run.failure?_of_error hr
      by_cases hf : f.fatal = true
      · rw [Parser.tryEach_of_fatal hr hf, Parser.tryHistory_of_fatal hr hf]
        exact hx.append hb
      · have hf' := Bool.eq_false_iff.2 hf
        rw [Parser.tryEach_of_error hr hf', Parser.tryHistory_of_error hr hf', ← List.append_assoc]
        have hcalm : Calm (k c) := hx.calm fun g hg => by
          rw [hfailure] at hg
          cases hg
          exact hf'
        refine ih hrest (hb.append hcalm) (fun g hg => ?_) (fun _ => by simp)
        cases hg
        -- the failure to report is a new one or the one before
        have hnew : Explains (before ++ k c) f :=
          (hx.explains f hfailure).mono (List.subset_append_right _ _)
        cases best with
        | none => exact ⟨hf', hnew⟩
        | some g =>
          obtain ⟨hg, hold⟩ := hbest g rfl
          rw [Parser.furthest]
          split
          · exact ⟨hf', hnew⟩
          · exact ⟨hg, hold.mono (List.subset_append_left _ _)⟩

theorem failure?_endOfList (elements : List α) (f : Failure) (c : Cursor) (told : Trace) :
    Run.failure? { result := Parser.endOfList elements f c, trace := told } = f.onlyFatal := by
  cases hf : f.fatal <;> simp [Run.failure?, Parser.endOfList, Failure.onlyFatal, hf]

section
variable {stalled : Nat → Trace} {run : Bool → Parser α} {k : Bool → Cursor → List Moment}
  (hrun : ∀ first c, Accounts (k first c) ((run first c).failure?.bind Failure.onlyFatal))
include hrun

/-- A loop passes on of the failures of its rounds what is fatal, and the first such failure ends it. -/
theorem accounts_of_runs {s : Parser.Collected α} {states : List (Parser.Collected α)}
    {t : Run (List α)} (h : Runs (Parser.roundOf stalled run) s states t) :
    Accounts (states.flatMap
      (Parser.roundHistory (fun position => (stalled position).map .event) run k)) t.failure? := by
  induction h with
  | @done s t h =>
    have hround := hrun s.elements.isEmpty s.cursor
    rw [List.flatMap_singleton]
    rcases Parser.roundOf_done h with ⟨a, d, hr, hd, rfl⟩ | ⟨f, hr, rfl⟩
    · rw [Run.failure?_of_ok hr] at hround
      have hend : Calm ((stalled s.cursor.position).map .event) := fun v _ hv => by simp at hv
      rw [Parser.roundHistory_of_ok hr, if_pos hd]
      exact (hround.calm_of_none.append hend).accounts_none
    · rw [Run.failure?_of_error hr] at hround
      rw [Parser.roundHistory_of_error hr, failure?_endOfList]
      exact hround
  | @again s s' states t h _ ih =>
    have hround := hrun s.elements.isEmpty s.cursor
    obtain ⟨a, d, hr, hd, rfl⟩ := Parser.roundOf_again h
    rw [Run.failure?_of_ok hr] at hround
    rw [List.flatMap_cons, Parser.roundHistory_of_ok hr, if_neg hd, List.append_nil]
    exact Accounts.append hround.calm_of_none ih

/-- An endless loop is a leaf that fails. -/
theorem accounts_loop (c : Cursor) :
    Accounts
      (Parser.loopHistory (Tree.endlessAt α c) (Parser.roundOf stalled run)
        (Parser.roundHistory (fun position => (stalled position).map .event) run k) (.start c))
      ((loop (Parser.roundOf stalled run) (.start c)).getD (Parser.endless c)).failure? := by
  cases hl : loop (Parser.roundOf stalled run) (.start c) with
  | some t =>
    obtain ⟨states, hr⟩ := loop_eq_some_iff.1 hl
    rw [Parser.loopHistory_of_runs hr]
    exact accounts_of_runs hrun hr
  | none =>
    rw [Parser.loopHistory_of_endless hl]
    exact accounts_leaf Parser.endless c

end

theorem accounts_repeated {p : Parser α} {k : Cursor → List Moment}
    (hp : ∀ c, Accounts (k c) ((p c).failure?.bind Failure.onlyFatal)) (c : Cursor) :
    Accounts
      (Parser.repeatHistory (Tree.endlessAt α) (fun position => [.event (.repeatStalled position)])
        p k c)
      (Parser.repeated p c).failure? := by
  unfold Parser.repeatHistory Parser.repeated
  rw [Parser.repeatRound_eq]
  exact accounts_loop (fun _ => hp) c

theorem accounts_separatedList {separator : Parser β} {ks : Cursor → List Moment} {p : Parser α}
    {k : Cursor → List Moment}
    (hs : ∀ c, Accounts (ks c) ((separator c).failure?.bind Failure.onlyFatal))
    (hp : ∀ c, Accounts (k c) ((p c).failure?.bind Failure.onlyFatal)) (c : Cursor) :
    Accounts
      (Parser.listHistory (Tree.endlessAt α) separator ks p k c)
      (Parser.separatedList separator p c).failure? := by
  have hrun : ∀ first d, Accounts (Parser.elementHistory separator ks k first d)
      ((Parser.elementOf separator p first d).failure?.bind Failure.onlyFatal)
    | true, d => hp d
    | false, d => accounts_andThen (hs d) fun _ => hp
  unfold Parser.listHistory Parser.separatedList
  rw [Parser.listRound_eq, Parser.elementHistory_eq]
  exact accounts_loop hrun c

end

/-- Every tree accounts for its failure by its history. -/
theorem accounts_history {α : Type} (t : Tree α) (c : Cursor) :
    Accounts (t.history c) (t.parser c).failure? := by
  induction t generalizing c with
  | leaf p => exact accounts_leaf p c
  | @choice α n alternatives ih =>
    cases n with
    | zero => exact accounts_leaf (Parser.choice []) c
    | succ n =>
      have hps : ∀ x ∈ List.ofFn fun i =>
          ((alternatives i).parser, Tree.inPart (.alternative i) (alternatives i).history),
          Accounts (x.2 c) (x.1 c).failure? := by
        intro x hx
        obtain ⟨i, rfl⟩ := List.mem_ofFn.1 hx
        exact (ih i c).plain _ rfl rfl
      have hnothing : Calm [] := fun _ _ h => nomatch h
      have hbest : ∀ g, none = some g → g.fatal = false ∧ Explains [] g := fun _ h => nomatch h
      have htry := accounts_tryHistory (n := n + 1) hps hnothing hbest (by simp)
      rw [List.map_ofFn] at htry
      simpa [Tree.history, Tree.parser, Parser.choice, Function.comp_def] using htry
  | repeated element ih =>
    exact accounts_repeated (fun d => (ih d).inList .round rfl) c
  | separated separator element ihs ihe =>
    exact accounts_separatedList (fun d => (ihs d).inList .separator rfl)
      (fun d => (ihe d).inList .element rfl) c
  | bracket opening content closing iho ihc ihl =>
    have hclosing := fun d => (ihl d).named .closing rfl rfl
    have hcontent := fun d => (ihc d).named .content rfl rfl
    have hopening := (iho c).named .opening rfl rfl
    show Accounts _ (Run.mapFailure _ _).failure?
    rw [Run.failure?_mapFailure, Option.map_eq_bind]
    refine accounts_andThen hopening fun _ d => accounts_andThen (hcontent d) fun b e => ?_
    rw [Run.failure?_map]
    exact hclosing e
  | discardLeft left main ihl ihm =>
    have hmain := fun d => (ihm d).named .main rfl rfl
    have hleft := (ihl c).named .left rfl rfl
    show Accounts _ (Run.mapFailure _ _).failure?
    rw [Run.failure?_mapFailure, Option.map_eq_bind]
    exact accounts_andThen hleft fun _ d => hmain d
  | both first second ihf ihs =>
    refine accounts_followed ((ihf c).plain _ rfl rfl) fun a d => ?_
    rw [Run.failure?_map]
    exact (ihs d).plain _ rfl rfl
  | map g t ih =>
    show Accounts _ ((t.parser c).map g).failure?
    rw [Run.failure?_map]
    exact (ih c).plain _ rfl rfl
  | nested t ih =>
    refine accounts_followed (accounts_leaf Parser.descend c) fun _ d => ?_
    rw [Run.failure?_andThen_succeed]
    exact (ih d).plain _ rfl rfl

/-- **A failure of a tree is the failure of a leaf that was run, with a name in front for each bracket
and each discarding node above the leaf. Unless the failure is fatal, no list is above the leaf. Once a
leaf has failed fatally nothing else happens, and its failure is passed on as it is.** The leaves are
any parsers, also such as go back in the text, and a repetition of those that never ends is a leaf. -/
theorem failure_provenance {α : Type} (t : Tree α) (c : Cursor) :
    (∀ f, (t.parser c).result = .error f →
      ∃ v g, .visit v ∈ t.history c ∧ t.LeafAt v.path v.leaf v.place ∧ v.Fails g ∧
        f.position = g.position ∧ f.fatal = g.fatal ∧ (g.fatal = true → f = g) ∧
        (g.fatal = false → f.expected = namedBy v.path g.expected ∧
          ∀ turn ∈ v.path, turn.inList = false)) ∧
    (∀ before v after g, t.history c = before ++ .visit v :: after → v.Fails g →
      g.fatal = true → after = [] ∧ (t.parser c).result = .error g) ∧
    (t.parser c).trace = (t.history c).flatMap Moment.told := by
  have haccounts := accounts_history t c
  refine ⟨fun f hf => ?_, fun before v after g hsplit hg hfatal => ?_, ?_⟩
  · obtain ⟨v, g, hv, hg, hthrough⟩ := haccounts.explains f (Run.failure?_of_error hf)
    refine ⟨v, g, hv, t.shows_history c _ hv, hg, ?_⟩
    cases hfatal : g.fatal with
    | true =>
      rw [Failure.through_of_fatal hfatal] at hthrough
      cases hthrough
      exact ⟨rfl, hfatal, fun _ => rfl, fun h => nomatch h⟩
    | false =>
      obtain ⟨rfl, hpath⟩ := Failure.through_of_not_fatal hfatal hthrough
      exact ⟨rfl, hfatal, (fun h => nomatch h), fun _ => ⟨rfl, hpath⟩⟩
  · obtain ⟨hafter, hfailure⟩ := haccounts.stops before v after g hsplit hg hfatal
    exact ⟨hafter, Run.failure?_eq_some.1 hfailure⟩
  · have htold := t.tells_history c
    rwa [List.filterMap_some] at htold

/-- A literal missed two levels down, and a depth limit reached at the same place. -/
theorem failure_provenance_brackets :
    let t : Tree String := .bracket (.leaf (Parser.literal "("))
      (.discardLeft (.leaf (Parser.literal "a")) (.nested (.leaf (Parser.literal "b"))))
      (.leaf (Parser.literal ")"))
    let missed : Failure := { expected := "Bracket: DiscardLeft: b", position := 2 }
    let tooDeep : Failure :=
      { expected := "nesting depth of at most " ++ toString 0, position := 2, fatal := true }
    ((t.parser (.atStart "(ac)" 1)).result = .error missed ∧
      ∃ v g, .visit v ∈ t.history (.atStart "(ac)" 1) ∧ v.Fails g ∧ g.fatal = false ∧
        missed.expected = namedBy v.path g.expected) ∧
    ∃ before v, t.history (.atStart "(ab)" 0) = before ++ [.visit v] ∧ v.Fails tooDeep ∧
      (t.parser (.atStart "(ab)" 0)).result = .error tooDeep := by
  intro t missed tooDeep
  have hmissed : (t.parser (.atStart "(ac)" 1)).result = .error missed := rfl
  obtain ⟨v, g, hv, -, hg, -, hfatal, -, hplain⟩ :=
    (failure_provenance t (.atStart "(ac)" 1)).1 missed hmissed
  refine ⟨⟨hmissed, v, g, hv, hg, hfatal.symm, (hplain hfatal.symm).1⟩, ?_⟩
  let limit : Visit :=
    ⟨[.content, .main], Parser.descend, (Cursor.atStart "(ab)" 0).forward 2⟩
  have hhistory : ∃ before, t.history (.atStart "(ab)" 0) = before ++ [.visit limit] :=
    ⟨[_, _], rfl⟩
  obtain ⟨before, hbefore⟩ := hhistory
  have hlimit : limit.Fails tooDeep := rfl
  exact ⟨before, limit, hbefore, hlimit,
    ((failure_provenance t (.atStart "(ab)" 0)).2.1 before limit [] tooDeep hbefore hlimit rfl).2⟩

end Descent
