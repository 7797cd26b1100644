import Descent.Proofs.History
import Descent.Proofs.Tree

/-!
# What happens in a run of a tree

In a run of a tree its leaves are run one after the other, each at some cursor, and the nodes above
them tell events in between. `Tree.history` writes all of that down. A choice without alternatives and
the limit check of a nested parser are leaves in this, since no part of theirs is run. So is a
repetition that never ends, of which there is no history to be written.

* `Turn` : a node on the way to a leaf, and in which of its parts the way goes on;
* `Visit`, `Moment` : a leaf is run, or a node tells an event;
* `tells_history` : what a run tells is what is told at the moments of its history, in that order;
* `shows_history` : a visit is of the leaf that its way leads to (`LeafAt`).
-/

namespace Descent

/-! ## Ways down a tree -/

/-- A node on the way to a leaf, and in which of its parts the way goes on. -/
inductive Turn where
  | alternative (i : Nat)
  | round
  | separator
  | element
  | opening
  | content
  | closing
  | left
  | main
  | first
  | second
  | mapped
  | deeper

/-! ## Histories of trees -/

/-- A leaf is run: the way to it, the parser that it is, and the cursor that it is run at. -/
structure Visit where
  path : List Turn
  {value : Type}
  leaf : Parser value
  place : Cursor

def Visit.Fails (v : Visit) (g : Failure) : Prop := (v.leaf v.place).result = .error g

/-- Something that happens in a run: a leaf is run, or a node tells an event. -/
inductive Moment where
  | visit (v : Visit)
  | event (e : Event)

namespace Moment

/-- The moment seen from one node further up. -/
def under (turn : Turn) : Moment → Moment
  | .visit v => .visit { v with path := turn :: v.path }
  | .event e => .event e

def told : Moment → Trace
  | .visit v => (v.leaf v.place).trace
  | .event e => [e]

theorem told_under (turn : Turn) (m : Moment) : (m.under turn).told = m.told := by
  cases m with
  | visit v => rfl
  | event e => rfl

end Moment

namespace Tree

/-- What happens in the part that `turn` leads to, seen from the node. -/
def inPart (turn : Turn) (h : Cursor → List Moment) : Cursor → List Moment :=
  fun c => (h c).map (.under turn)

/-- What is seen of a repetition that never ends. -/
def endlessAt (α : Type) (c : Cursor) : List Moment :=
  [.visit ⟨[], (Parser.endless : Parser (List α)), c⟩]

/-- All that happens when the parser of the tree is run at `c`, in order. -/
def history : {α : Type} → Tree α → Cursor → List Moment
  | _, .leaf p, c => [.visit ⟨[], p, c⟩]
  | α, @choice _ 0 _, c => [.visit ⟨[], (Parser.choice [] : Parser α), c⟩]
  | α, @choice _ (n + 1) alternatives, c =>
    Parser.tryHistory
      (fun best => (Parser.exhausted (n + 1) best c : Run α).trace.map .event) c
      (List.ofFn fun i =>
        ((alternatives i).parser, inPart (.alternative i) (alternatives i).history)) none
  | _, @repeated α element, c =>
    Parser.repeatHistory (endlessAt α) (fun position => [.event (.repeatStalled position)])
      element.parser (inPart .round element.history) c
  | _, @separated α _ separator element, c =>
    Parser.listHistory (endlessAt α) separator.parser (inPart .separator separator.history)
      element.parser (inPart .element element.history) c
  | _, .bracket opening content closing, c =>
    inPart .opening opening.history c ++ (opening.parser c).onwards fun d =>
      inPart .content content.history d ++
        (content.parser d).onwards (inPart .closing closing.history)
  | _, .discardLeft left main, c =>
    inPart .left left.history c ++ (left.parser c).onwards (inPart .main main.history)
  | _, .both first second, c =>
    inPart .first first.history c ++ (first.parser c).onwards (inPart .second second.history)
  | _, .map _ t, c => inPart .mapped t.history c
  | _, .nested t, c =>
    [.visit ⟨[], Parser.descend, c⟩] ++ (Parser.descend c).onwards (inPart .deeper t.history)

/-- The way leads to a leaf of the tree, and that leaf is the parser `q`. A repetition is a leaf only where
it never ends, which depends on the cursor. -/
inductive LeafAt : {α : Type} → Tree α → List Turn → {β : Type} → Parser β → Cursor → Prop where
  | leaf {α : Type} (p : Parser α) (c : Cursor) : LeafAt (.leaf p) [] p c
  | noAlternative {α : Type} (alternatives : Fin 0 → Tree α) (c : Cursor) :
    LeafAt (.choice alternatives) [] (Parser.choice [] : Parser α) c
  | limit {α : Type} (t : Tree α) (c : Cursor) : LeafAt (.nested t) [] Parser.descend c
  | endless {α : Type} {element : Tree α} {c : Cursor}
    (h : loop (Parser.repeatRound element.parser) (.start c) = none) :
    LeafAt (.repeated element) [] (Parser.endless : Parser (List α)) c
  | endlessList {α β : Type} {separator : Tree β} {element : Tree α} {c : Cursor}
    (h : loop (Parser.listRound separator.parser element.parser) (.start c) = none) :
    LeafAt (.separated separator element) [] (Parser.endless : Parser (List α)) c
  | alternative {α β : Type} {q : Parser β} {path : List Turn} {c : Cursor} {n : Nat}
    {alternatives : Fin n → Tree α} (i : Fin n) (h : LeafAt (alternatives i) path q c) :
    LeafAt (.choice alternatives) (.alternative i :: path) q c
  | round {α β : Type} {q : Parser β} {path : List Turn} {c : Cursor} {element : Tree α}
    (h : LeafAt element path q c) : LeafAt (.repeated element) (.round :: path) q c
  | separator {α β γ : Type} {q : Parser β} {path : List Turn} {c : Cursor} {separator : Tree γ}
    {element : Tree α} (h : LeafAt separator path q c) :
    LeafAt (.separated separator element) (.separator :: path) q c
  | element {α β γ : Type} {q : Parser β} {path : List Turn} {c : Cursor} {separator : Tree γ}
    {element : Tree α} (h : LeafAt element path q c) :
    LeafAt (.separated separator element) (.element :: path) q c
  | opening {α β γ δ : Type} {q : Parser β} {path : List Turn} {c : Cursor} {opening : Tree α}
    {content : Tree γ} {closing : Tree δ} (h : LeafAt opening path q c) :
    LeafAt (.bracket opening content closing) (.opening :: path) q c
  | content {α β γ δ : Type} {q : Parser β} {path : List Turn} {c : Cursor} {opening : Tree α}
    {content : Tree γ} {closing : Tree δ} (h : LeafAt content path q c) :
    LeafAt (.bracket opening content closing) (.content :: path) q c
  | closing {α β γ δ : Type} {q : Parser β} {path : List Turn} {c : Cursor} {opening : Tree α}
    {content : Tree γ} {closing : Tree δ} (h : LeafAt closing path q c) :
    LeafAt (.bracket opening content closing) (.closing :: path) q c
  | left {α β γ : Type} {q : Parser β} {path : List Turn} {c : Cursor} {left : Tree α} {main : Tree γ}
    (h : LeafAt left path q c) : LeafAt (.discardLeft left main) (.left :: path) q c
  | main {α β γ : Type} {q : Parser β} {path : List Turn} {c : Cursor} {left : Tree α} {main : Tree γ}
    (h : LeafAt main path q c) : LeafAt (.discardLeft left main) (.main :: path) q c
  | first {α β γ : Type} {q : Parser β} {path : List Turn} {c : Cursor} {first : Tree α}
    {second : Tree γ} (h : LeafAt first path q c) : LeafAt (.both first second) (.first :: path) q c
  | second {α β γ : Type} {q : Parser β} {path : List Turn} {c : Cursor} {first : Tree α}
    {second : Tree γ} (h : LeafAt second path q c) : LeafAt (.both first second) (.second :: path) q c
  | mapped {α β γ : Type} {q : Parser β} {path : List Turn} {c : Cursor} {g : α → γ} {t : Tree α}
    (h : LeafAt t path q c) : LeafAt (.map g t) (.mapped :: path) q c
  | deeper {α β : Type} {q : Parser β} {path : List Turn} {c : Cursor} {t : Tree α}
    (h : LeafAt t path q c) : LeafAt (.nested t) (.deeper :: path) q c

/-! ## What is told -/

theorem tells_inPart {α : Type} {p : Parser α} {h : Cursor → List Moment}
    (hp : Parser.Tells some Moment.told p h) (turn : Turn) :
    Parser.Tells some Moment.told p (inPart turn h) := by
  intro c
  rw [hp c, inPart, List.flatMap_map]
  exact congrArg (h c).flatMap (funext fun m => (Moment.told_under turn m).symm)

/-- **A run tells what is told at the moments of its history, one after the other.** -/
theorem tells_history {α : Type} (t : Tree α) :
    Parser.Tells some Moment.told t.parser t.history := by
  induction t with
  | leaf p => exact fun c => by simp [history, parser, Moment.told]
  | @choice α n alternatives ih =>
    intro c
    cases n with
    | zero => simp [history, parser, Moment.told]
    | succ n =>
      have hps : ∀ x ∈ List.ofFn fun i =>
          ((alternatives i).parser, inPart (.alternative i) (alternatives i).history),
          Parser.Tells some Moment.told x.1 x.2 := by
        intro x hx
        obtain ⟨i, rfl⟩ := List.mem_ofFn.1 hx
        exact tells_inPart (ih i) _
      have hlast : ∀ best, (Parser.exhausted (α := α) (n + 1) best c).trace.filterMap some =
          ((Parser.exhausted (α := α) (n + 1) best c).trace.map Moment.event).flatMap
            Moment.told := fun best => rfl
      have htry := Parser.tells_tryEach hlast hps none
      rw [List.map_ofFn] at htry
      simpa [history, parser, Parser.choice, Function.comp_def] using htry
  | repeated element ih =>
    exact Parser.tells_repeated (fun _ => rfl) (fun _ => rfl) (tells_inPart ih _)
  | separated separator element ihs ihe =>
    exact Parser.tells_separatedList (fun _ => rfl) (tells_inPart ihs _) (tells_inPart ihe _)
  | bracket opening content closing iho ihc ihl =>
    exact Parser.tells_bracket (tells_inPart iho _) (tells_inPart ihc _) (tells_inPart ihl _)
  | discardLeft left main ihl ihm =>
    exact Parser.tells_followedBy (tells_inPart ihl _) (tells_inPart ihm _)
  | both first second ihf ihs => exact Parser.tells_both (tells_inPart ihf _) (tells_inPart ihs _)
  | map g t ih => exact tells_inPart ih _
  | nested t ih =>
    have hlimit : Parser.Tells some Moment.told Parser.descend
        fun c => [.visit ⟨[], Parser.descend, c⟩] := fun c => by simp [Moment.told]
    exact Parser.tells_nested hlimit (tells_inPart ih _)

/-! ## Every visit is of a leaf -/

/-- A visit at this moment is of the leaf that its way leads to. -/
def Shows {α : Type} (t : Tree α) : Moment → Prop
  | .visit v => t.LeafAt v.path v.leaf v.place
  | .event _ => True

theorem shows_inPart {α β : Type} {t : Tree α} {u : Tree β} {turn : Turn}
    (hturn : ∀ {γ : Type} {q : Parser γ} {path : List Turn} {c : Cursor}, t.LeafAt path q c →
      u.LeafAt (turn :: path) q c)
    {h : Cursor → List Moment} (hh : ∀ c, ∀ m ∈ h c, t.Shows m) (c : Cursor) :
    ∀ m ∈ inPart turn h c, u.Shows m := by
  intro m hm
  obtain ⟨m', hm', rfl⟩ := List.mem_map.1 hm
  cases m' with
  | visit v => exact hturn (hh c _ hm')
  | event e => trivial

theorem shows_history {α : Type} (t : Tree α) (c : Cursor) : ∀ m ∈ t.history c, t.Shows m := by
  induction t generalizing c with
  | leaf p => exact List.forall_mem_singleton.2 (.leaf p c)
  | @choice α n alternatives ih =>
    cases n with
    | zero => exact List.forall_mem_singleton.2 (.noAlternative alternatives c)
    | succ n =>
      refine Parser.forall_mem_tryHistory (fun best m hm => ?_) (fun x hx => ?_) none
      · obtain ⟨e, -, rfl⟩ := List.mem_map.1 hm
        trivial
      · obtain ⟨i, rfl⟩ := List.mem_ofFn.1 hx
        exact shows_inPart (.alternative i) (ih i) c
  | repeated element ih =>
    exact Parser.forall_mem_repeatHistory (fun hl => List.forall_mem_singleton.2 (.endless hl))
      (fun _ => List.forall_mem_singleton.2 trivial) (shows_inPart .round ih)
  | separated separator element ihs ihe =>
    exact Parser.forall_mem_listHistory (fun hl => List.forall_mem_singleton.2 (.endlessList hl))
      (shows_inPart .separator ihs) (shows_inPart .element ihe)
  | bracket opening content closing iho ihc ihl =>
    exact List.forall_mem_append.2 ⟨shows_inPart .opening iho c,
      Parser.forall_mem_onwards fun d => List.forall_mem_append.2
        ⟨shows_inPart .content ihc d, Parser.forall_mem_onwards (shows_inPart .closing ihl)⟩⟩
  | discardLeft left main ihl ihm =>
    exact List.forall_mem_append.2
      ⟨shows_inPart .left ihl c, Parser.forall_mem_onwards (shows_inPart .main ihm)⟩
  | both first second ihf ihs =>
    exact List.forall_mem_append.2
      ⟨shows_inPart .first ihf c, Parser.forall_mem_onwards (shows_inPart .second ihs)⟩
  | map g t ih => exact shows_inPart .mapped ih c
  | nested t ih =>
    exact List.forall_mem_append.2 ⟨List.forall_mem_singleton.2 (.limit t c),
      Parser.forall_mem_onwards (shows_inPart .deeper ih)⟩

end Tree

end Descent
