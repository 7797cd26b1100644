import Descent.Loop
import Descent.Parser.Sequence

/-!
# Repetition

A parser is run again and again until it fails, and the failure is dropped unless it is fatal. A
success at the same position is kept once and ends the repetition: running the same parser there
again would never make progress.

* `repeated p` is the loop over `p`, and records where it ended on a success that went nowhere;
* `separatedList separator p` is a loop of its own, whose rounds begin with the separator, the first
  excepted.

A parser that goes back in the text, or to another text, may keep such a loop running for good.
There is no answer then, and `endless` stands in its place: as it is fatal, whatever contains the loop
does not end otherwise either.
-/

namespace Descent.Parser

variable {α β : Type}

/-- How far a list has come: its elements, what has been told, and where it goes on. -/
structure Collected (α : Type) where
  elements : Array α
  told : Array Event
  cursor : Cursor

/-- A list at its beginning. -/
def Collected.start (c : Cursor) : Collected α := { elements := #[], told := #[], cursor := c }

/-- What stands for the answer of a repetition that never ends. -/
def endless : Parser α := fun _ =>
  .fail { expected := "an end of the repetition", position := 0, fatal := true }

/-- What a list of `elements` comes to when its next one fails at `c`. -/
def endOfList (elements : List α) (f : Failure) (c : Cursor) : Outcome (List α) :=
  if f.fatal then .error f else .ok (elements, c)

/-! ## Zero or more -/

/-- A round of `repeated`. -/
def repeatRound (p : Parser α) (s : Collected α) : Pass (Collected α) (Run (List α)) :=
  let r := p s.cursor
  let told := s.told ++ r.trace
  match r.result with
  | .ok (a, next) =>
    let elements := s.elements.push a
    if next.position = s.cursor.position then
      .done
        { result := .ok (elements.toList, next)
          trace := told.toList ++ [.repeatStalled s.cursor.position] }
    else .again { elements, told, cursor := next }
  | .error f =>
    .done { result := endOfList s.elements.toList f s.cursor, trace := told.toList }

/-- Zero or more of `p`. -/
def repeated (p : Parser α) : Parser (List α) := fun c =>
  (loop (repeatRound p) (.start c)).getD (endless c)

/-! ## Zero or more with separators -/

/-- An element of a list, behind a separator unless it is the first. -/
def elementOf (separator : Parser β) (p : Parser α) (first : Bool) : Parser α :=
  if first then p else followedBy separator p

/-- A round of `separatedList`. -/
def listRound (separator : Parser β) (p : Parser α) (s : Collected α) :
    Pass (Collected α) (Run (List α)) :=
  let r := elementOf separator p s.elements.isEmpty s.cursor
  let told := s.told ++ r.trace
  match r.result with
  | .ok (a, next) =>
    let elements := s.elements.push a
    if next.position = s.cursor.position then
      .done { result := .ok (elements.toList, next), trace := told.toList }
    else .again { elements, told, cursor := next }
  | .error f =>
    .done { result := endOfList s.elements.toList f s.cursor, trace := told.toList }

/-- Zero or more of `p` with `separator` between them. A separator that no element follows is
left where it is. -/
def separatedList (separator : Parser β) (p : Parser α) : Parser (List α) := fun c =>
  (loop (listRound separator p) (.start c)).getD (endless c)

end Descent.Parser
