import Descent.Regex.Token.Escape

/-!
# Bracketed classes

A class in brackets is a union of characters, ranges, escapes, named ASCII classes and classes
again, which may be negated as a whole and combined by intersection, difference and symmetric
difference, from left to right. It is read with a stack of the classes that are open.

A hyphen stands for itself at the start and before the closing bracket, and a closing bracket
stands for itself at the start.
-/

namespace Descent.Regex

inductive ClassOp where
  | intersection
  | difference
  | symmetricDifference
  deriving DecidableEq, Repr

def ClassOp.combine : ClassOp → CharSet → CharSet → CharSet
  | .intersection => .inter
  | .difference => .diff
  | .symmetricDifference => .symmDiff

/-- An open class: whether it is negated, what stands left of the last operator, and what has been
read since. -/
structure OpenClass where
  negated : Bool
  left : Option (ClassOp × CharSet)
  items : CharSet

namespace OpenClass

def add (o : OpenClass) (s : CharSet) : OpenClass := { o with items := .union o.items s }

/-- What has been read, without the negation. -/
def combined (o : OpenClass) : CharSet :=
  match o.left with
  | none => o.items
  | some (op, s) => op.combine s o.items

def operator (o : OpenClass) (op : ClassOp) : OpenClass :=
  { o with left := some (op, o.combined), items := .empty }

def close (o : OpenClass) : CharSet := if o.negated then .compl o.combined else o.combined

end OpenClass

/-! ## Named ASCII classes -/

def asciiClass (name : String) : Option (List (Char × Char)) :=
  match name with
  | "alnum" => some [('0', '9'), ('A', 'Z'), ('a', 'z')]
  | "alpha" => some [('A', 'Z'), ('a', 'z')]
  | "ascii" => some [('\x00', '\x7f')]
  | "blank" => some [('\t', '\t'), (' ', ' ')]
  | "cntrl" => some [('\x00', '\x1f'), ('\x7f', '\x7f')]
  | "digit" => some [('0', '9')]
  | "graph" => some [('!', '~')]
  | "lower" => some [('a', 'z')]
  | "print" => some [(' ', '~')]
  | "punct" => some [('!', '/'), (':', '@'), ('[', '\x60'), ('\x7b', '~')]
  | "space" => some [('\t', '\r'), (' ', ' ')]
  | "upper" => some [('A', 'Z')]
  | "word" => some [('0', '9'), ('A', 'Z'), ('_', '_'), ('a', 'z')]
  | "xdigit" => some [('0', '9'), ('A', 'F'), ('a', 'f')]
  | _ => none

/-- A named class whose opening bracket has been read, if this is one. -/
def readAsciiClass : List Char → Option (CharSet × List Char)
  | ':' :: cs =>
    let negated := cs.head? = some '^'
    let cs := if negated then cs.tail else cs
    let name := cs.takeWhile (· ≠ ':')
    match cs.drop name.length, asciiClass (String.ofList name) with
    | ':' :: ']' :: rest, some ranges =>
      some (if negated then .outside ranges else .within ranges, rest)
    | _, _ => none
  | _ => none

/-! ## Reading -/

/-- Hyphens at the start of a class, each of which stands for itself. -/
def readHyphens (extended : Bool) (o : OpenClass) (cs : List Char) : OpenClass × List Char :=
  match cs with
  | '-' :: rest =>
    have := length_skipBlanks_le extended rest
    readHyphens extended (o.add (.single '-')) (skipBlanks extended rest)
  | cs => (o, cs)
termination_by cs.length
decreasing_by simp; omega

/-- The start of a class whose opening bracket has been read. -/
def openClass (extended : Bool) (cs : List Char) : OpenClass × List Char :=
  let cs := skipBlanks extended cs
  let negated := cs.head? = some '^'
  let cs := if negated then skipBlanks extended cs.tail else cs
  match cs with
  | ']' :: rest => ({ negated, left := none, items := .single ']' }, rest)
  | cs => readHyphens extended { negated, left := none, items := .empty } cs

def readClassItem : List Char → Except Fault (Escape × List Char)
  | [] => throw .unclosedClass
  | '\\' :: cs => Escape.read cs
  | c :: cs => return (.character c, cs)

def Escape.toSet : Escape → Except Fault CharSet
  | .character c => return .single c
  | .set s => return s
  | .anchor _ => throw .badClassItem

/-- The characters between two ends, which have to be single characters in order. -/
def rangeBetween : Escape → Escape → Except Fault CharSet
  | .character low, .character high =>
    if low ≤ high then return .within [(low, high)] else throw .badRange
  | _, _ => throw .badRange

/-- An item of a class, or a range that it starts. -/
def readClassRange (extended : Bool) (cs : List Char) : Except Fault (CharSet × List Char) := do
  let (first, rest) ← readClassItem cs
  match skipBlanks extended rest with
  | '-' :: rest =>
    match skipBlanks extended rest with
    | ']' :: _ | '-' :: _ => return (← first.toSet, '-' :: rest)
    | rest =>
      let (last, rest) ← readClassItem rest
      return (← rangeBetween first last, rest)
  | rest => return (← first.toSet, rest)

/-- Where reading a class stands: inside it, with the classes around it, or behind it. -/
inductive ClassState where
  | inside (o : OpenClass) (outer : List OpenClass)
  | closed (s : CharSet)

def classStep (extended : Bool) (o : OpenClass) (outer : List OpenClass) (cs : List Char) :
    Except Fault (ClassState × List Char) :=
  match skipBlanks extended cs with
  | [] => throw .unclosedClass
  | ']' :: rest =>
    match outer with
    | [] => return (.closed o.close, rest)
    | o' :: outer => return (.inside (o'.add o.close) outer, rest)
  | '[' :: rest =>
    match readAsciiClass rest with
    | some (s, rest) => return (.inside (o.add s) outer, rest)
    | none =>
      let (o', rest) := openClass extended rest
      return (.inside o' (o :: outer), rest)
  | '&' :: '&' :: rest => return (.inside (o.operator .intersection) outer, rest)
  | '-' :: '-' :: rest => return (.inside (o.operator .difference) outer, rest)
  | '~' :: '~' :: rest => return (.inside (o.operator .symmetricDifference) outer, rest)
  | rest => do
    let (s, rest) ← readClassRange extended rest
    return (.inside (o.add s) outer, rest)

/-- The rest of the class `o` and of the classes around it. -/
def readClass (extended : Bool) (o : OpenClass) (outer : List OpenClass) (cs : List Char) :
    Except Fault (CharSet × List Char) := do
  let (state, rest) ← classStep extended o outer cs
  match state with
  | .closed s => return (s, rest)
  | .inside o outer =>
    if rest.length < cs.length then readClass extended o outer rest else throw .stalled
termination_by cs.length

end Descent.Regex
