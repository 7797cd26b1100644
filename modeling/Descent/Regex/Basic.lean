import Descent.Regex.CharSet

/-!
# Regular expressions

A regular expression with its flags resolved: every set says whether case counts, every anchor
which lines it knows of, every repetition whether it prefers more rounds or fewer. Groups are gone;
they only say what belongs together.
-/

namespace Descent

namespace Regex

/-- A condition on a place that consumes nothing. -/
inductive Anchor where
  | textStart
  | textEnd
  | lineStart
  | lineEnd
  | wordBoundary
  | noWordBoundary
  | wordStart
  | wordEnd
  | wordStartHalf
  | wordEndHalf
  deriving DecidableEq, Repr

end Regex

inductive Regex where
  | empty
  | set (ignoreCase : Bool) (s : Regex.CharSet)
  | anchor (a : Regex.Anchor)
  | seq (r s : Regex)
  | alt (r s : Regex)
  /-- At least `least` and at most `most` rounds of `r`; without `most` there is no upper limit. -/
  | rounds (r : Regex) (least : Nat) (most : Option Nat) (greedy : Bool)
  deriving DecidableEq, Repr

namespace Regex

/-- Matches the empty text and nothing else, if anything. -/
def consumesNothing : Regex → Bool
  | .empty | .anchor _ => true
  | .set _ _ => false
  | .seq r s | .alt r s => r.consumesNothing && s.consumesNothing
  | .rounds r _ most _ => r.consumesNothing || most = some 0

/-- `rounds`, with the counts cut down to one where further rounds cannot add anything. -/
def repetition (r : Regex) (least : Nat) (most : Option Nat) (greedy : Bool) : Regex :=
  if r.consumesNothing then .rounds r (min least 1) (most.map (min · 1)) greedy
  else .rounds r least most greedy

/-! ## Size -/

/-- About how many states an automaton needs for one character of the set, its UTF-8 form being
read byte by byte. -/
def CharSet.weight : CharSet → Nat
  | .within ranges => ranges.foldl (fun n (_, high) => n + high.utf8Size) 0
  | .outside ranges => 3 * ranges.length + 6
  | .decimal => 150
  | .blank => 20
  | .word => 1450
  | .compl s => s.weight
  | .union s t | .inter s t => s.weight + t.weight

/-- About how many states an automaton for the expression needs, counted rounds written out. -/
def weight : Regex → Nat
  | .empty | .anchor _ => 1
  | .set _ s => s.weight
  | .seq r s => r.weight + s.weight
  | .alt r s => r.weight + s.weight + 1
  | .rounds r least most _ => (r.weight + 1) * max 1 (most.getD least)

/-- An expression of more weight is refused. -/
def maxWeight : Nat := 327680

end Regex

end Descent
