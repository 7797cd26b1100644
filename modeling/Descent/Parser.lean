import Descent.Cursor
import Descent.Trace

/-!
# Parsers

A parser is a function from a cursor to a run: what came out of the attempt, and the events told
on the way. A success holds a value and the cursor after it; a failure holds no cursor, so the
caller goes on from the one it had.

* `Run.andThen` goes on after a success and puts the two traces together in their order;
* `Parser.map`, `Parser.literal` and the parsers that only look at or change the depth are here,
  the constructs that build parsers from parsers each have a module below `Descent.Parser`.
-/

namespace Descent

/-- What an attempt comes to: a value and the cursor after it, or why there is none. -/
abbrev Outcome (α : Type) := Except Failure (α × Cursor)

structure Run (α : Type) where
  result : Outcome α
  trace : Trace

abbrev Parser (α : Type) := Cursor → Run α

variable {α β : Type}

namespace Run

/-- A run without events. -/
def silent (result : Outcome α) : Run α := { result, trace := [] }

def succeed (a : α) (c : Cursor) : Run α := silent (.ok (a, c))

def fail (f : Failure) : Run α := silent (.error f)

/-- The events of `trace` come before those of the run. -/
def after (r : Run α) (trace : Trace) : Run α := { r with trace := trace ++ r.trace }

def map (f : α → β) (r : Run α) : Run β :=
  { r with result := r.result.map fun (a, c) => (f a, c) }

def mapFailure (f : Failure → Failure) (r : Run α) : Run α :=
  { r with result := r.result.mapError f }

/-- Goes on with `next` after a success. -/
def andThen (r : Run α) (next : α → Cursor → Run β) : Run β :=
  match r.result with
  | .ok (a, c) => (next a c).after r.trace
  | .error f => { result := .error f, trace := r.trace }

end Run

namespace Parser

def map (f : α → β) (p : Parser α) : Parser β := fun c => (p c).map f

/-- Matches exactly `expected`. -/
def literal (expected : String) : Parser String := fun c => .silent (c.matchLiteral expected)

def descend : Parser Unit := fun c => .silent (c.descend.map fun c => ((), c))

def ascend : Parser Unit := fun c => .succeed () c.ascend

/-- Runs `p` but stays where it was. -/
def peek (p : Parser α) : Parser α := fun c => (p c).andThen fun a _ => .succeed a c

end Parser

end Descent
