import Descent.Regex.Token
import Descent.Text.Numeral

/-!
# Escapes

What a backslash can introduce: a character written by its letter, its code point or itself, a
named class, or an anchor. Digits are refused, as there is nothing for them to refer back to, and
so is every letter without a meaning. Classes by Unicode properties are not provided: `\p` and `\P` are
letters without a meaning here.
-/

namespace Descent.Regex

inductive Escape where
  | character (c : Char)
  | set (s : CharSet)
  | anchor (a : Anchor)
  deriving DecidableEq, Repr

namespace Escape

def hexValue? (c : Char) : Option Nat :=
  if c.isDigit then some (c.toNat - '0'.toNat)
  else if 'a' ≤ c && c ≤ 'f' then some (c.toNat - 'a'.toNat + 10)
  else if 'A' ≤ c && c ≤ 'F' then some (c.toNat - 'A'.toNat + 10)
  else none

/-- The character whose code point the hexadecimal digits give. -/
def codePoint (digits : List Char) : Except Fault Escape := do
  if digits.isEmpty then throw .badEscape
  let some values := digits.mapM hexValue? | throw .badEscape
  let n := Text.digitsValue 16 values
  if n.isValidChar then return .character (Char.ofNat n) else throw .badCodePoint

/-- A code point of `width` digits, or of any number of digits in braces. -/
def readCodePoint (width : Nat) : List Char → Except Fault (Escape × List Char)
  | '\x7b' :: cs => do
    let digits := cs.takeWhile (· ≠ '\x7d')
    match cs.drop digits.length with
    | _ :: rest => return (← codePoint digits, rest)
    | [] => throw .badEscape
  | cs => do
    if cs.length < width then throw .badEscape
    return (← codePoint (cs.take width), cs.drop width)

/-- A word boundary may be told apart further by a name in braces. -/
def boundaryNamed (name : String) : Option Anchor :=
  match name with
  | "start" => some .wordStart
  | "end" => some .wordEnd
  | "start-half" => some .wordStartHalf
  | "end-half" => some .wordEndHalf
  | _ => none

/-- What follows `\b`. Braces without a letter behind them are a count, and left alone. -/
def readBoundary : List Char → Except Fault (Escape × List Char)
  | '\x7b' :: cs => do
    if cs.isEmpty then throw .badEscape
    let name := cs.takeWhile fun c => c.isAlpha || c = '-'
    if name.isEmpty then return (.anchor .wordBoundary, '\x7b' :: cs)
    match cs.drop name.length, boundaryNamed (String.ofList name) with
    | '\x7d' :: rest, some a => return (.anchor a, rest)
    | _, _ => throw .badEscape
  | cs => return (.anchor .wordBoundary, cs)

/-- An ASCII character that is neither a letter nor a digit can stand for itself. -/
def canEscape (c : Char) : Bool := c.toNat < 0x80 && !c.isAlphanum

/-- The escape whose backslash has been read. -/
def read : List Char → Except Fault (Escape × List Char)
  | [] => throw .badEscape
  | c :: cs =>
    match c with
    | 'x' => readCodePoint 2 cs
    | 'u' => readCodePoint 4 cs
    | 'U' => readCodePoint 8 cs
    | 'd' => return (.set .decimal, cs)
    | 'D' => return (.set (.compl .decimal), cs)
    | 's' => return (.set .blank, cs)
    | 'S' => return (.set (.compl .blank), cs)
    | 'w' => return (.set .word, cs)
    | 'W' => return (.set (.compl .word), cs)
    | 'a' => return (.character '\x07', cs)
    | 't' => return (.character '\t', cs)
    | 'n' => return (.character '\n', cs)
    | 'v' => return (.character '\x0b', cs)
    | 'f' => return (.character '\x0c', cs)
    | 'r' => return (.character '\r', cs)
    | 'A' => return (.anchor .textStart, cs)
    | 'z' => return (.anchor .textEnd, cs)
    | 'b' => readBoundary cs
    | 'B' => return (.anchor .noWordBoundary, cs)
    | '<' => return (.anchor .wordStart, cs)
    | '>' => return (.anchor .wordEnd, cs)
    | c =>
      if c.isDigit then throw .backreference
      else if canEscape c then return (.character c, cs)
      else throw .badEscape

end Escape

end Descent.Regex
