import Descent.Regex.Token.CharClass

/-!
# Reading tokens

`next` reads one token from the front of a text, and `scan` the whole of a text. Whether blanks
and comments count is a flag that follows the groups, so `scan` keeps what it is in the groups
around the place it has come to.

A text is characters and never bytes, so the flag `u` can be set but not cleared: `(?-u)` is refused.
There is no flag `R` either, since the lines that anchors and dots know of end with a newline only.
-/

namespace Descent.Regex.Token

/-! ## Quantifiers -/

/-- A question mark behind a quantifier makes it lazy. -/
def readLazy : List Char → Bool × List Char
  | '?' :: cs => (true, cs)
  | cs => (false, cs)

def quantified (least : Nat) (most : Option Nat) (cs : List Char) : Token × List Char :=
  let (isLazy, rest) := readLazy cs
  (.quantifier least most isLazy, rest)

/-- A count, which has to fit into 32 bits. -/
def count (digits : List Char) : Except Fault Nat :=
  let n := Text.decimalValue digits
  if digits.isEmpty || 0x100000000 ≤ n then .error .badCount else .ok n

/-- The digits at the front, with the blanks around them dropped. -/
def readDigits (cs : List Char) : List Char × List Char :=
  let cs := dropBlanks cs
  let digits := cs.takeWhile Char.isDigit
  (digits, dropBlanks (cs.drop digits.length))

/-- A quantifier in braces whose opening brace has been read. -/
def readCounts (extended : Bool) (cs : List Char) : Except Fault (Token × List Char) := do
  let (digits, rest) := readDigits (skipBlanks extended cs)
  let least ← count digits
  match rest with
  | '\x7d' :: rest => return quantified least (some least) (skipBlanks extended rest)
  | ',' :: rest =>
    match skipBlanks extended rest with
    | '\x7d' :: rest => return quantified least none (skipBlanks extended rest)
    | rest =>
      let (digits, rest) := readDigits rest
      let most ← count digits
      match rest with
      | '\x7d' :: rest =>
        if least ≤ most then return quantified least (some most) (skipBlanks extended rest)
        else throw .badCount
      | _ => throw .badCount
  | _ => throw .badCount

/-! ## Groups -/

/-- Flag changes up to the colon or the closing parenthesis, which is given as well. -/
def readFlags (negated dangling : Bool) (changes : List FlagChange) :
    List Char → Except Fault (List FlagChange × Char × List Char)
  | [] => .error .badFlag
  | c :: cs =>
    if c = ':' || c = ')' then
      if dangling then .error .danglingNegation else .ok (changes, c, cs)
    else if c = '-' then
      if negated then .error .repeatedFlag else readFlags true true changes cs
    else match Flag.ofChar c with
      | none => .error .badFlag
      | some flag =>
        if changes.any (·.1 = flag) then .error .repeatedFlag
        else if flag = .unicode && negated then .error .badFlag
        else readFlags negated false (changes ++ [(flag, !negated)]) cs

def isGroupNameStart (c : Char) : Bool := c = '_' || (Text.isWord c && !Text.isDecimal c)

def isGroupNameChar (c : Char) : Bool := Text.isWord c || c = '.' || c = '[' || c = ']'

/-- A group whose name comes next, up to the closing angle bracket. -/
def readGroupName (cs : List Char) : Except Fault (Token × List Char) :=
  let name := cs.takeWhile (· ≠ '>')
  match name, cs.drop name.length with
  | first :: others, _ :: rest =>
    if isGroupNameStart first && others.all isGroupNameChar then
      .ok (.openGroup [] (some (String.ofList name)), rest)
    else .error .badGroupName
  | _, _ => .error .badGroupName

/-- A group, or flags, whose opening parenthesis has been read. -/
def readGroup (extended : Bool) (cs : List Char) : Except Fault (Token × List Char) :=
  match skipBlanks extended cs with
  | '?' :: '=' :: _ | '?' :: '!' :: _ | '?' :: '<' :: '=' :: _ | '?' :: '<' :: '!' :: _ =>
    .error .lookAround
  | '?' :: 'P' :: '<' :: rest | '?' :: '<' :: rest => readGroupName rest
  | '?' :: rest => do
    let (changes, stop, rest) ← readFlags false false [] rest
    if stop = ':' then return (.openGroup changes none, rest)
    else if changes.isEmpty then throw .noFlags
    else return (.setFlags changes, rest)
  | rest => .ok (.openGroup [] none, rest)

/-! ## All tokens -/

def ofEscape : Escape → Token
  | .character c => .set (.single c)
  | .set s => .set s
  | .anchor a => .anchor a

/-- The token that starts with `c` and goes on in `cs`. -/
def next (extended : Bool) (c : Char) (cs : List Char) : Except Fault (Token × List Char) :=
  match c with
  | '(' => readGroup extended cs
  | ')' => .ok (.closeGroup, cs)
  | '|' => .ok (.bar, cs)
  | '[' => do
    let (o, rest) := openClass extended cs
    let (s, rest) ← readClass extended o [] rest
    return (.set s, rest)
  | '?' => .ok (quantified 0 (some 1) cs)
  | '*' => .ok (quantified 0 none cs)
  | '+' => .ok (quantified 1 none cs)
  | '\x7b' => readCounts extended cs
  | '\\' => do
    let (e, rest) ← Escape.read cs
    return (ofEscape e, rest)
  | '.' => .ok (.dot, cs)
  | '^' => .ok (.caret, cs)
  | '$' => .ok (.dollar, cs)
  | c => .ok (.set (.single c), cs)

/-- Whether the extended form holds here and in the groups around, innermost first. -/
structure Scope where
  here : Bool
  outer : List Bool

def extendedAfter (extended : Bool) (changes : List FlagChange) : Bool :=
  (Flags.applyAll { extended } changes).extended

/-- The scope behind a token. -/
def Scope.after (scope : Scope) : Token → Scope
  | .openGroup changes _ =>
    { here := extendedAfter scope.here changes, outer := scope.here :: scope.outer }
  | .closeGroup =>
    match scope.outer with
    | [] => scope
    | extended :: outer => { here := extended, outer }
  | .setFlags changes => { scope with here := extendedAfter scope.here changes }
  | _ => scope

def scan (scope : Scope) (cs : List Char) : Except Fault (List Token) :=
  match skipBlanks scope.here cs with
  | [] => .ok []
  | c :: rest => do
    let (token, rest) ← next scope.here c rest
    if rest.length < cs.length then
      let tokens ← scan (scope.after token) rest
      return token :: tokens
    else throw .stalled
termination_by cs.length

end Descent.Regex.Token
