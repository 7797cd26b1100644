import Descent.Parser.Choice
import Descent.Parser.Repetition

/-!
# Parsers as trees

A parser that the constructs of this library build from other parsers, written down as a tree. The
inner nodes are the constructs, and the leaves are parsers of any kind. Every node knows the type of
its values, so a tree stands for a parser of just that type.

* `Tree.parser` : the parser that a tree stands for;
* `Tree.Leaves P` : all parsers at the leaves have the property `P`;
* `HandedOn P` : every construct hands `P` on from its parts, so that it passes from the leaves of a tree
  to the whole (`HandedOn.parser`).
-/

namespace Descent

inductive Tree : Type → Type 1 where
  | leaf {α : Type} (p : Parser α) : Tree α
  | choice {α : Type} {n : Nat} (alternatives : Fin n → Tree α) : Tree α
  | repeated {α : Type} (element : Tree α) : Tree (List α)
  | separated {α β : Type} (separator : Tree β) (element : Tree α) : Tree (List α)
  | bracket {α β γ : Type} (opening : Tree α) (content : Tree β) (closing : Tree γ) : Tree β
  | discardLeft {α β : Type} (left : Tree α) (main : Tree β) : Tree β
  | both {α β : Type} (first : Tree α) (second : Tree β) : Tree (α × β)
  | map {α β : Type} (g : α → β) (t : Tree α) : Tree β
  | nested {α : Type} (t : Tree α) : Tree α

namespace Tree

def parser : {α : Type} → Tree α → Parser α
  | _, .leaf p => p
  | _, .choice alternatives => Parser.choice (List.ofFn fun i => (alternatives i).parser)
  | _, .repeated element => Parser.repeated element.parser
  | _, .separated separator element => Parser.separatedList separator.parser element.parser
  | _, .bracket opening content closing =>
    Parser.bracket opening.parser content.parser closing.parser
  | _, .discardLeft left main => Parser.discardLeft left.parser main.parser
  | _, .both first second => Parser.both first.parser second.parser
  | _, .map g t => t.parser.map g
  | _, .nested t => Parser.nested t.parser

/-- The parsers at the leaves all have the property `P`. -/
def Leaves (P : ∀ {β : Type}, Parser β → Prop) : {α : Type} → Tree α → Prop
  | _, .leaf p => P p
  | _, .choice alternatives => ∀ i, (alternatives i).Leaves P
  | _, .repeated element => element.Leaves P
  | _, .separated separator element => separator.Leaves P ∧ element.Leaves P
  | _, .bracket opening content closing =>
    opening.Leaves P ∧ content.Leaves P ∧ closing.Leaves P
  | _, .discardLeft left main => left.Leaves P ∧ main.Leaves P
  | _, .both first second => first.Leaves P ∧ second.Leaves P
  | _, .map _ t => t.Leaves P
  | _, .nested t => t.Leaves P

theorem Leaves.imp {P Q : ∀ {β : Type}, Parser β → Prop}
    (hPQ : ∀ {β : Type} {p : Parser β}, P p → Q p) {α : Type} {t : Tree α} (h : t.Leaves P) :
    t.Leaves Q := by
  induction t with
  | leaf p => exact hPQ h
  | choice alternatives ih => exact fun i => ih i (h i)
  | repeated element ih => exact ih h
  | separated separator element ihs ihe => exact ⟨ihs h.1, ihe h.2⟩
  | bracket opening content closing iho ihc ihl => exact ⟨iho h.1, ihc h.2.1, ihl h.2.2⟩
  | discardLeft left main ihl ihm => exact ⟨ihl h.1, ihm h.2⟩
  | both first second ihf ihs => exact ⟨ihf h.1, ihs h.2⟩
  | map g t ih => exact ih h
  | nested t ih => exact ih h

end Tree

/-- A construct has the property `P` if its parts have it. -/
structure HandedOn (P : ∀ {β : Type}, Parser β → Prop) : Prop where
  choice {α : Type} {ps : List (Parser α)} (hps : ∀ p ∈ ps, P p) : P (Parser.choice ps)
  repeated {α : Type} {p : Parser α} (hp : P p) : P (Parser.repeated p)
  separatedList {α β : Type} {separator : Parser β} {p : Parser α} (hs : P separator) (hp : P p) :
    P (Parser.separatedList separator p)
  bracket {α β γ : Type} {opening : Parser α} {content : Parser β} {closing : Parser γ}
    (ho : P opening) (hc : P content) (hl : P closing) : P (Parser.bracket opening content closing)
  discardLeft {α β : Type} {left : Parser α} {main : Parser β} (hl : P left) (hm : P main) :
    P (Parser.discardLeft left main)
  both {α β : Type} {p : Parser α} {q : Parser β} (hp : P p) (hq : P q) : P (Parser.both p q)
  map {α β : Type} {p : Parser α} (hp : P p) (g : α → β) : P (p.map g)
  nested {α : Type} {p : Parser α} (hp : P p) : P (Parser.nested p)

/-- What the constructs hand on passes from the leaves to the whole. -/
theorem HandedOn.parser {P : ∀ {β : Type}, Parser β → Prop} (hP : HandedOn P) {α : Type} (t : Tree α)
    (h : t.Leaves P) : P t.parser := by
  induction t with
  | leaf p => exact h
  | choice alternatives ih =>
    refine hP.choice fun p hp => ?_
    obtain ⟨i, rfl⟩ := List.mem_ofFn.1 hp
    exact ih i (h i)
  | repeated element ih => exact hP.repeated (ih h)
  | separated separator element ihs ihe => exact hP.separatedList (ihs h.1) (ihe h.2)
  | bracket opening content closing iho ihc ihl =>
    exact hP.bracket (iho h.1) (ihc h.2.1) (ihl h.2.2)
  | discardLeft left main ihl ihm => exact hP.discardLeft (ihl h.1) (ihm h.2)
  | both first second ihf ihs => exact hP.both (ihf h.1) (ihs h.2)
  | map g t ih => exact hP.map (ih h) g
  | nested t ih => exact hP.nested (ih h)

end Descent
