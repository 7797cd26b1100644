import Descent.Failure
import Descent.Location

/-!
# Diagnostics

A diagnostic is a failure as the reader of a text gets to see it: what was expected, and where, as
an offset and as line and column. `report` shows the lines around the place as well.
-/

namespace Descent

structure Diagnostic where
  expected : String
  offset : Nat
  line : Nat
  column : Nat
  deriving DecidableEq, Repr

namespace Diagnostic

def ofFailure (source : String) (f : Failure) : Diagnostic :=
  let l := Location.ofOffset source f.position
  { expected := f.expected, offset := l.position, line := l.line, column := l.column }

def message (d : Diagnostic) : String :=
  "expected " ++ d.expected ++ " at offset " ++ toString d.offset
    ++ " (line " ++ toString d.line ++ ", byte offset " ++ toString d.column ++ ")"

def header (d : Diagnostic) : String :=
  "Syntax error at line " ++ toString d.line ++ ", byte offset " ++ toString d.column
    ++ ": expected " ++ d.expected ++ "\n"

/-- The diagnostic with the lines of `source` around it, which is the text it was made for. -/
def report (d : Diagnostic) (source : String) : String :=
  let context := (Location.ofOffset source d.offset).contextLines
  String.join ((d.header :: "\n" :: context.map (· ++ "\n")))

end Diagnostic

end Descent
