import Descent.Parser

/-!
# Ordered choice

The alternatives are tried in turn, each from the same cursor. The first that succeeds or fails
fatally decides; when none does, the choice reports the failure that got furthest into the text,
the earliest of those that got equally far, and says in the trace that it is exhausted.
-/

namespace Descent.Parser

variable {α : Type}

/-- The failure to report after `f`, when `best` is the one to report before it. -/
def furthest (best : Option Failure) (f : Failure) : Failure :=
  match best with
  | none => f
  | some g => if g.position < f.position then f else g

/-- The end of a choice of `count` alternatives none of which decided. -/
def exhausted (count : Nat) (best : Option Failure) : Parser α := fun c =>
  let reported := best.getD { expected := "Choice: no alternatives", position := c.position }
  { result := .error reported, trace := [.choiceExhausted count c.position reported] }

/-- The part of a choice of `count` alternatives in which `ps` are still to be tried. -/
def tryEach (count : Nat) : List (Parser α) → Option Failure → Parser α
  | [], best => exhausted count best
  | p :: ps, best => fun c =>
    let r := p c
    match r.result with
    | .ok _ => r
    | .error f =>
      if f.fatal then r else (tryEach count ps (some (furthest best f)) c).after r.trace

def choice (ps : List (Parser α)) : Parser α := tryEach ps.length ps none

end Descent.Parser
