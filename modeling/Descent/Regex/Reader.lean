import Descent.Regex.Token.Scan

/-!
# From tokens to an expression

The tokens are taken one by one, with a stack of the groups that are open. For each there is what
has been read of it: the alternatives that are complete, the pieces of the one at hand, and the
flags, which decide what a dot, an anchor or a quantifier means. A group inherits the flags around
it, and its own changes end with it.

`Regex.ofString` reads the written form as a whole.
-/

namespace Descent.Regex

/-- What has been read at one place of an alternative. -/
inductive Piece where
  | operand (r : Regex)
  /-- A change of flags, which cannot be repeated. -/
  | change

/-- A group that is being read; what was read last comes first. -/
structure OpenGroup where
  flags : Flags
  branches : List Regex
  pieces : List Piece

namespace OpenGroup

def begin (flags : Flags) : OpenGroup := { flags, branches := [], pieces := [] }

def push (g : OpenGroup) (r : Regex) : OpenGroup := { g with pieces := .operand r :: g.pieces }

/-- The alternative at hand. -/
def sequence (g : OpenGroup) : Regex :=
  g.pieces.foldl (fun acc piece =>
    match piece with
    | .operand r => .seq r acc
    | .change => acc) .empty

def endBranch (g : OpenGroup) : OpenGroup :=
  { g with branches := g.sequence :: g.branches, pieces := [] }

/-- All alternatives, in the order in which they were written. -/
def close (g : OpenGroup) : Regex := g.branches.foldl (fun acc r => .alt r acc) g.sequence

def change (g : OpenGroup) (changes : List FlagChange) : OpenGroup :=
  { g with flags := g.flags.applyAll changes, pieces := .change :: g.pieces }

/-- Repeats the last piece, which has to be one that can be. -/
def quantify (g : OpenGroup) (least : Nat) (most : Option Nat) (isLazy : Bool) :
    Except Fault OpenGroup :=
  match g.pieces with
  | .operand r :: pieces =>
    let r := repetition r least most (isLazy == g.flags.swapGreed)
    .ok { g with pieces := .operand r :: pieces }
  | _ => .error .missingOperand

end OpenGroup

/-- The groups that are open, the innermost apart, and the names used so far. -/
structure Reader where
  inner : OpenGroup
  outer : List OpenGroup
  names : List String

namespace Reader

def start : Reader := { inner := .begin {}, outer := [], names := [] }

def push (b : Reader) (r : Regex) : Reader := { b with inner := b.inner.push r }

def openGroup (b : Reader) (changes : List FlagChange) (name : Option String) :
    Except Fault Reader :=
  let names := name.toList ++ b.names
  if name.any (b.names.contains ·) then .error .repeatedGroupName
  else
    .ok { inner := .begin (b.inner.flags.applyAll changes), outer := b.inner :: b.outer, names }

def closeGroup (b : Reader) : Except Fault Reader :=
  match b.outer with
  | [] => .error .unopenedGroup
  | g :: outer => .ok { b with inner := g.push b.inner.close, outer }

def take (b : Reader) (token : Token) : Except Fault Reader :=
  let flags := b.inner.flags
  match token with
  | .set s => .ok (b.push (.set flags.ignoreCase s))
  | .dot => .ok (b.push (.set false (if flags.dotAll then .any else .outside [('\n', '\n')])))
  | .caret => .ok (b.push (.anchor (if flags.multiLine then .lineStart else .textStart)))
  | .dollar => .ok (b.push (.anchor (if flags.multiLine then .lineEnd else .textEnd)))
  | .anchor a => .ok (b.push (.anchor a))
  | .openGroup changes name => b.openGroup changes name
  | .closeGroup => b.closeGroup
  | .bar => .ok { b with inner := b.inner.endBranch }
  | .setFlags changes => .ok { b with inner := b.inner.change changes }
  | .quantifier least most isLazy => do
    return { b with inner := ← b.inner.quantify least most isLazy }

/-- The expression, once every group is closed. -/
def finish (b : Reader) : Except Fault Regex :=
  if b.outer.isEmpty then
    let r := b.inner.close
    if r.weight ≤ maxWeight then .ok r else .error .tooLarge
  else .error .unclosedGroup

end Reader

def ofTokens (tokens : List Token) : Except Fault Regex := do
  (← tokens.foldlM Reader.take .start).finish

/-- The regular expression that `source` is the written form of. -/
def ofString (source : String) : Except Fault Regex := do
  ofTokens (← Token.scan { here := false, outer := [] } source.toList)

end Descent.Regex
