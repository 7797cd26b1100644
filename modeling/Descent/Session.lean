import Descent.Form

/-!
# Sessions

In a session one cursor is moved step by step, by the operations on cursors and by parsers given
as forms. A step that fails leaves the cursor where it was. Cursors can be saved and taken up
again, since none is ever changed.
-/

namespace Descent

structure Session where
  cursor : Cursor
  saved : List Cursor

inductive Step where
  | advance (bytes : Nat)
  | ascend
  | descend
  | literal (s : String)
  | pattern (p : Pattern)
  | parse (f : Form)
  /-- Asks for the whole text. -/
  | source
  /-- Asks for the label of a pattern. -/
  | label (p : Pattern)
  | save
  | load (index : Nat)
  /-- Asks whether the cursor is the same as a saved one. -/
  | compare (index : Nat)
  /-- Starts over with another text. -/
  | switch (text : String) (maxDepth : Nat)

/-- What a step has to say. -/
inductive Reply where
  | done
  | value (v : Value)
  | failure (f : Failure)

namespace Session

def start (text : String) (maxDepth : Nat) : Session :=
  { cursor := .atStart text maxDepth, saved := [] }

def moveTo (s : Session) (c : Cursor) : Session := { s with cursor := c }

/-- Takes over the cursor of a successful run. -/
def settle (s : Session) (run : Run Value) : Session × Reply × Trace :=
  match run.result with
  | .ok (v, c) => (s.moveTo c, .value v, run.trace)
  | .error f => (s, .failure f, run.trace)

def step (rules : Rules) (s : Session) : Step → Session × Reply × Trace
  | .advance bytes => (s.moveTo (s.cursor.advance bytes), .done, [])
  | .ascend => (s.moveTo s.cursor.ascend, .done, [])
  | .descend => s.settle (Parser.descend.map (fun _ => .nothing) s.cursor)
  | .literal text => s.settle ((Parser.literal text).map .text s.cursor)
  | .pattern p => s.settle (p.parser.map .text s.cursor)
  | .parse f => s.settle (rules.parser f s.cursor)
  | .source => (s, .value (.text s.cursor.text), [])
  | .label p => (s, .value (.text p.label), [])
  | .save => ({ s with saved := s.saved ++ [s.cursor] }, .done, [])
  | .load index => (s.moveTo (s.saved.getD index s.cursor), .done, [])
  | .compare index => (s, .value (.truth (s.saved[index]? = some s.cursor)), [])
  | .switch text maxDepth => (s.moveTo (.atStart text maxDepth), .done, [])

end Session

end Descent
