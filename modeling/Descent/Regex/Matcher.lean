import Descent.Regex.Basic

/-!
# Matching

A matcher is given a place in a text and what has to follow, and answers with the end of the first
complete match in order of preference: the left alternative before the right one, more rounds
before fewer, or the other way round for a lazy repetition. So the answer is not the longest match
but the first one, as a reader working from left to right would find it.

A repetition without an upper limit does not start another round after one that consumed nothing.
Hence each round but the last leaves less text ahead, which is the measure that `Matcher.plus`
recurses on.

* `Anchor.holds` : when an anchor holds at a place;
* `Regex.matcher` : the matcher of an expression, by recursion on the expression;
* `Regex.find` : the leftmost match in a text, and among those at its start the preferred one.
-/

namespace Descent.Regex

/-- A place in a text: the character before it, if any, and the text ahead. -/
structure Place where
  before : Option Char
  ahead : List Char
  deriving DecidableEq, Repr

def Anchor.holds (a : Anchor) (p : Place) : Bool :=
  let wordBefore := p.before.any Text.isWord
  let wordAfter := p.ahead.head?.any Text.isWord
  match a with
  | .textStart => p.before.isNone
  | .textEnd => p.ahead.isEmpty
  | .lineStart => p.before.all (· = '\n')
  | .lineEnd => p.ahead.head?.all (· = '\n')
  | .wordBoundary => wordBefore != wordAfter
  | .noWordBoundary => wordBefore == wordAfter
  | .wordStart => !wordBefore && wordAfter
  | .wordEnd => wordBefore && !wordAfter
  | .wordStartHalf => !wordBefore
  | .wordEndHalf => !wordAfter

/-- From a place, the end of the first match after which the continuation succeeds. -/
abbrev Matcher := Place → (Place → Option Place) → Option Place

namespace Matcher

/-- Tries `first` and then `second`, or the other way round. -/
def prefer (forwards : Bool) (first second : Unit → Option Place) : Option Place :=
  if forwards then (first ()).orElse second else (second ()).orElse first

def nothing : Matcher := fun p k => k p

def character (holds : Char → Bool) : Matcher := fun p k =>
  match p.ahead with
  | c :: cs => if holds c then k { before := some c, ahead := cs } else none
  | [] => none

def condition (holds : Place → Bool) : Matcher := fun p k => if holds p then k p else none

def seq (m n : Matcher) : Matcher := fun p k => m p fun q => n q k

def alt (m n : Matcher) : Matcher := fun p k => prefer true (fun _ => m p k) (fun _ => n p k)

/-- Exactly `n` rounds. -/
def times (m : Matcher) : Nat → Matcher
  | 0 => nothing
  | n + 1 => seq m (times m n)

/-- At most `n` rounds. -/
def upTo (greedy : Bool) (m : Matcher) : Nat → Matcher
  | 0 => nothing
  | n + 1 => fun p k =>
    prefer greedy (fun _ => m p fun q => upTo greedy m n q k) (fun _ => k p)

/-- One round or more. -/
def plus (greedy : Bool) (m : Matcher) (p : Place) (k : Place → Option Place) : Option Place :=
  m p fun q =>
    if q.ahead.length < p.ahead.length then
      prefer greedy (fun _ => plus greedy m q k) (fun _ => k q)
    else k q
termination_by p.ahead.length

def rounds (greedy : Bool) (m : Matcher) (least : Nat) : Option Nat → Matcher
  | some most => seq (times m least) (upTo greedy m (most - least))
  | none =>
    match least with
    | 0 => fun p k => prefer greedy (fun _ => plus greedy m p k) (fun _ => k p)
    | n + 1 => seq (times m n) (plus greedy m)

end Matcher

def matcher : Regex → Matcher
  | .empty => .nothing
  | .set ignoreCase s => .character (s.holds ignoreCase)
  | .anchor a => .condition a.holds
  | .seq r s => .seq r.matcher s.matcher
  | .alt r s => .alt r.matcher s.matcher
  | .rounds r least most greedy => .rounds greedy r.matcher least most

/-! ## Searching -/

/-- A stretch of a text: the number of characters before it, and its characters. -/
structure Stretch where
  start : Nat
  text : List Char
  deriving DecidableEq, Repr

/-- The preferred match that starts at `p`. -/
def matchAt (r : Regex) (p : Place) : Option (List Char) :=
  (r.matcher p some).map fun q => p.ahead.take (p.ahead.length - q.ahead.length)

/-- The first match that starts `start` characters into the text or later. -/
def findFrom (r : Regex) (start : Nat) (before : Option Char) (cs : List Char) :
    Option Stretch :=
  match r.matchAt { before, ahead := cs } with
  | some text => some { start, text }
  | none =>
    match cs with
    | [] => none
    | c :: cs => findFrom r (start + 1) (some c) cs

/-- The leftmost match in the text `cs`. -/
def find (r : Regex) (cs : List Char) : Option Stretch := r.findFrom 0 none cs

end Descent.Regex
