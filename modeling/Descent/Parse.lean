import Descent.Diagnostic
import Descent.Grammar

/-!
# Parsing a text

The whole of a text is given to the grammar of expressions. In lenient mode one expression at the
start is enough and whatever follows is ignored; in strict mode the expression has to span the
text. Either way the outcome is the expression or a diagnostic, together with the journal of the
parse: the events of the grammar, and at the end what came of it.
-/

namespace Descent

inductive Mode where
  | lenient
  | strict
  deriving DecidableEq, Repr

structure Options where
  mode : Mode := .lenient
  maxDepth : Nat := defaultMaxDepth
  deriving DecidableEq, Repr

def Options.lenient : Options := {}

def Options.strict : Options := { mode := .strict }

/-- An entry of the journal of a parse. -/
inductive Record where
  | event (e : Event)
  | ignored (bytes : Nat)
  | parsed (text : String) (tree : Expression)
  | rejected (text : String) (f : Failure)

/-- A record as a line of a log. -/
def Record.line : Record → String
  | .event e => e.line
  | .ignored bytes => "DEBUG ignoring " ++ toString bytes ++ " trailing bytes"
  | .parsed text tree => "DEBUG parsed " ++ Text.quoted text ++ " as " ++ tree.render
  | .rejected text f => "DEBUG failed to parse " ++ Text.quoted text ++ ": " ++ f.message

structure Parse where
  result : Except Diagnostic Expression
  journal : List Record

namespace Parse

/-- Decides on what an expression has left over: strict mode refuses it, lenient mode notes it. -/
def settle (mode : Mode) (tree : Expression) (c : Cursor) :
    Except Failure Expression × List Record :=
  if c.atEnd then (.ok tree, [])
  else match mode with
    | .strict => (.error { expected := "end of input", position := c.position }, [])
    | .lenient => (.ok tree, [.ignored (Text.byteLength c.ahead)])

end Parse

/-- Parses `text` under the given options. -/
def parseWith (options : Options) (text : String) : Parse :=
  let run := Grammar.expression (Cursor.atStart text options.maxDepth)
  let (settled, remarks) := match run.result with
    | .ok (tree, c) => Parse.settle options.mode tree c
    | .error f => (.error f, [])
  let journal := run.trace.map .event ++ remarks
  match settled with
  | .ok tree => { result := .ok tree, journal := journal ++ [.parsed text tree] }
  | .error f =>
    { result := .error (.ofFailure text f), journal := journal ++ [.rejected text f] }

/-- Parses an expression at the start of `text`. -/
def parse (text : String) : Parse := parseWith .lenient text

/-- Parses an expression that spans `text`. -/
def parseComplete (text : String) : Parse := parseWith .strict text

end Descent
