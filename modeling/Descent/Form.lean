import Descent.Grammar
import Descent.Pattern
import Descent.Value

/-!
# Forms

A form is a parser written down as a tree: its leaves are parsers of their own, and its inner
nodes are the constructs that build parsers from parsers. A form may refer to rules by name, and
a rule may refer to itself.

* `Form.parser lookup f` is the parser that `f` stands for, with names answered by `lookup`;
* `Rules.parser rules f` is the same with names answered by `rules`. A reference is followed only
  so many times in a row as there are rules, places and depths to be combined. More references
  than that have to come back to one rule at one cursor, from where there would be no end.
-/

namespace Descent

inductive Form where
  | leaf (p : Parser Value)
  | choice (alternatives : List Form)
  | repeated (f : Form)
  | separated (separator f : Form)
  | bracket (opening content closing : Form)
  | discardLeft (left main : Form)
  | both (first second : Form)
  | nested (f : Form)
  | map (g : Value → Value) (f : Form)
  | peek (f : Form)
  | rule (name : String)

namespace Form

/-! ## Leaves -/

def literal (s : String) : Form := .leaf ((Parser.literal s).map .text)

def pattern (p : Pattern) : Form := .leaf (p.parser.map .text)

def boolean : Form := .leaf (Grammar.boolean.map .truth)

def number : Form := .leaf (Grammar.number.map .integer)

def identifier : Form := .leaf (Grammar.identifier.map .text)

def call : Form := .leaf (Grammar.call.map fun parts => .expression (.ofCall parts))

def expression : Form := .leaf (Grammar.expression.map .expression)

/-- Where the cursor is. -/
def position : Form := .leaf fun c => .succeed (.count c.position) c

def depth : Form := .leaf fun c => .succeed (.count c.depth) c

def descend : Form := .leaf (Parser.descend.map fun _ => .nothing)

def ascend : Form := .leaf (Parser.ascend.map fun _ => .nothing)

def fail (expected : String) (fatal : Bool) : Form :=
  .leaf fun c => .fail { expected, position := c.position, fatal }

/-- Passes `n` bytes, or fewer where a character or the text ends. -/
def skip (n : Nat) : Form :=
  .leaf fun c =>
    .succeed (.text (String.ofList (c.ahead.take (Text.charsWithin n c.ahead)))) (c.advance n)

/-! ## The parser of a form -/

mutual

def parser (lookup : String → Parser Value) : Form → Parser Value
  | .leaf p => p
  | .choice alternatives => Parser.choice (parsers lookup alternatives)
  | .repeated f => (Parser.repeated (f.parser lookup)).map .list
  | .separated separator f =>
    (Parser.separatedList (separator.parser lookup) (f.parser lookup)).map .list
  | .bracket opening content closing =>
    Parser.bracket (opening.parser lookup) (content.parser lookup) (closing.parser lookup)
  | .discardLeft left main => Parser.discardLeft (left.parser lookup) (main.parser lookup)
  | .both first second =>
    (Parser.both (first.parser lookup) (second.parser lookup)).map fun (v, w) => .pair v w
  | .nested f => Parser.nested (f.parser lookup)
  | .map g f => (f.parser lookup).map g
  | .peek f => Parser.peek (f.parser lookup)
  | .rule name => lookup name

def parsers (lookup : String → Parser Value) : List Form → List (Parser Value)
  | [] => []
  | f :: fs => f.parser lookup :: parsers lookup fs

end

end Form

/-- Forms with names. Of two with one name the first counts. -/
abbrev Rules := List (String × Form)

namespace Rules

/-- The rule called `name`, in which references are followed at most `n` deep. -/
def follow (rules : Rules) : Nat → String → Parser Value
  | 0, name => fun c =>
    .fail { expected := "an end of rule " ++ name, position := c.position, fatal := true }
  | n + 1, name => fun c =>
    match rules.lookup name with
    | some f => f.parser (follow rules n) c
    | none => .fail { expected := "a rule " ++ name, position := c.position, fatal := true }

/-- In how many ways a rule, a place ahead of `c` and a depth can be combined. -/
def combinations (rules : Rules) (c : Cursor) : Nat :=
  rules.length * (c.ahead.length + 1) * (max c.depth c.maxDepth + 1)

def parser (rules : Rules) (f : Form) : Parser Value := fun c =>
  f.parser (follow rules (rules.combinations c)) c

end Rules

end Descent
