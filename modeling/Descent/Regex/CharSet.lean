import Descent.Text.Blank
import Descent.Text.Digit
import Descent.Text.Word

/-!
# Sets of characters

What one position of a regular expression may stand for. A set is kept as it was written, and
`holds` says which characters are in it. Case can be ignored: then a set given by ranges also has
the variants of its characters, and complements and intersections are taken of the sets so
widened. The named classes have the variants of all their characters in any case.

Only the letters of ASCII have variants, among them the Kelvin sign and the long s. Other letters
differ from their capitals also where case is ignored.
-/

namespace Descent.Regex

inductive CharSet where
  /-- The characters in one of the closed ranges. -/
  | within (ranges : List (Char × Char))
  /-- The characters in none of the closed ranges. -/
  | outside (ranges : List (Char × Char))
  | decimal
  | blank
  | word
  | compl (s : CharSet)
  | union (s t : CharSet)
  | inter (s t : CharSet)
  deriving DecidableEq, Repr

namespace CharSet

/-- The characters that differ from `c` in case only, `c` among them. Beyond ASCII these are the
two characters that fold to an ASCII letter, the Kelvin sign and the long s. -/
def caseVariants (c : Char) : List Char :=
  match c with
  | 'k' | 'K' | '\u212A' => ['k', 'K', '\u212A']
  | 's' | 'S' | '\u017F' => ['s', 'S', '\u017F']
  | c => [c, c.toLower, c.toUpper]

def inSome (ranges : List (Char × Char)) (c : Char) : Bool :=
  ranges.any fun (low, high) => low ≤ c && c ≤ high

/-- The characters that stand for `c` when it is looked up among ranges. -/
def standIns (ignoreCase : Bool) (c : Char) : List Char :=
  if ignoreCase then caseVariants c else [c]

def holds (ignoreCase : Bool) : CharSet → Char → Bool
  | .within ranges, c => (standIns ignoreCase c).any fun d => inSome ranges d
  | .outside ranges, c => (standIns ignoreCase c).any fun d => !inSome ranges d
  | .decimal, c => Text.isDecimal c
  | .blank, c => Text.isBlank c
  | .word, c => Text.isWord c
  | .compl s, c => !s.holds ignoreCase c
  | .union s t, c => s.holds ignoreCase c || t.holds ignoreCase c
  | .inter s t, c => s.holds ignoreCase c && t.holds ignoreCase c

def empty : CharSet := .within []

def any : CharSet := .outside []

def single (c : Char) : CharSet := .within [(c, c)]

def diff (s t : CharSet) : CharSet := .inter s (.compl t)

def symmDiff (s t : CharSet) : CharSet := .union (.diff s t) (.diff t s)

end CharSet

end Descent.Regex
