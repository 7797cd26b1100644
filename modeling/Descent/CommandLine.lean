import Descent.Parse

/-!
# The command line

The arguments are expressions to parse, with options anywhere between them; without expressions
some samples are parsed instead. Every expression that is accepted is written to the output as a
tree, and every other one is reported on the error output, each by itself and in the order given.

* `Invocation.read` : what the arguments ask for, or what is wrong with them;
* `Invocation.run` : what is written, and the exit code.
-/

namespace Descent

/-- What is wrong with the arguments. -/
inductive UsageFault where
  | unknownOption (argument : String)
  | repeatedOption (option : String)
  | missingValue (option : String)
  | invalidValue (value : String)
  deriving DecidableEq, Repr

/-- The arguments read so far. -/
structure Arguments where
  inputs : List String := []
  strict : Bool := false
  maxDepth : Option Nat := none
  deriving DecidableEq, Repr

inductive Invocation where
  | parse (arguments : Arguments)
  | version
  deriving DecidableEq, Repr

/-- What has been written so far, and how many expressions have been refused. -/
structure Progress where
  failed : Nat := 0
  output : String := ""
  errors : String := ""
  deriving DecidableEq, Repr

/-- What a finished program leaves behind. -/
structure Completion where
  code : Nat
  output : String
  errors : String
  deriving DecidableEq, Repr

namespace Arguments

/-- A decimal number that fits into 64 bits, with a plus sign or without. -/
def readCount (text : String) : Option Nat :=
  let digits := match text.toList with
    | '+' :: cs => cs
    | cs => cs
  if digits.isEmpty || !digits.all Char.isDigit then none
  else
    let n := Text.decimalValue digits
    if n < 0x10000000000000000 then some n else none

def setStrict (a : Arguments) : Except UsageFault Arguments :=
  if a.strict then .error (.repeatedOption "--strict") else .ok { a with strict := true }

def setMaxDepth (a : Arguments) (value : String) : Except UsageFault Arguments :=
  if a.maxDepth.isSome then .error (.repeatedOption "--max-depth")
  else match readCount value with
    | some n => .ok { a with maxDepth := some n }
    | none => .error (.invalidValue value)

def add (a : Arguments) (inputs : List String) : Arguments :=
  { a with inputs := a.inputs ++ inputs }

def options (a : Arguments) : Options :=
  { mode := if a.strict then .strict else .lenient
    maxDepth := a.maxDepth.getD defaultMaxDepth }

end Arguments

namespace Invocation

/-- Starts with a hyphen and is more than that. -/
def isOption (argument : String) : Bool :=
  argument.startsWith "-" && argument ≠ "-"

/-- The value behind the equals sign, if the argument is `--max-depth=…`. -/
def attachedDepth (argument : String) : Option String :=
  ("--max-depth=".toList.isPrefixOf? argument.toList).map String.ofList

/-- Reads the arguments from left to right and stops at the first thing that is wrong, at a
request for the version, or behind the last argument. -/
def readFrom (a : Arguments) : List String → Except UsageFault Invocation
  | [] => .ok (.parse a)
  | "--" :: inputs => .ok (.parse (a.add inputs))
  | "--strict" :: rest => do readFrom (← a.setStrict) rest
  | "--max-depth" :: value :: rest =>
    if isOption value then .error (.missingValue "--max-depth")
    else do readFrom (← a.setMaxDepth value) rest
  | "--version" :: _ => .ok .version
  | argument :: rest =>
    if argument.startsWith "-V" then .ok .version
    else if argument = "--max-depth" then .error (.missingValue "--max-depth")
    else match attachedDepth argument with
      | some value => do readFrom (← a.setMaxDepth value) rest
      | none =>
        if isOption argument then .error (.unknownOption argument)
        else readFrom (a.add [argument]) rest

def read (arguments : List String) : Except UsageFault Invocation := readFrom {} arguments

/-- What is parsed when no expression is given. -/
def samples : List String :=
  ["true", "false", "1", "+1", "-1", "+12", "-12", "Foo()", "Foo(1)", "Foo(1,true)",
    "Foo(1,true,Bar())", "Foo(1,true,Bar(true))"]

/-- Parses one expression and adds what it comes to. -/
def treat (options : Options) (so : Progress) (input : String) : Progress :=
  match (parseWith options input).result with
  | .ok tree => { so with output := so.output ++ tree.render ++ "\n" }
  | .error d => { so with failed := so.failed + 1, errors := so.errors ++ d.report input }

/-- The program fails if any expression has been refused. -/
def finish (so : Progress) : Completion where
  code := if so.failed = 0 then 0 else 1
  output := so.output
  errors := so.errors

def run : Invocation → Completion
  | .version => { code := 0, output := "exprcomb 0.1.0\n", errors := "" }
  | .parse a =>
    let inputs := if a.inputs.isEmpty then samples else a.inputs
    finish (inputs.foldl (treat a.options) {})

end Invocation

end Descent
