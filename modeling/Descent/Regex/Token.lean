import Descent.Regex.Basic

/-!
# Tokens of the written form

The written form of a regular expression is a row of tokens. This module holds the tokens, the
flags that can be set in between, and the reasons why a text is not a regular expression. How
tokens are read is in the modules below this one.
-/

namespace Descent.Regex

/-- Why a text is not a regular expression. -/
inductive Fault where
  | unclosedGroup
  | unopenedGroup
  | unclosedClass
  | badRange
  | badClassItem
  | badEscape
  | badCodePoint
  | backreference
  | lookAround
  | badFlag
  | repeatedFlag
  | danglingNegation
  | noFlags
  | badGroupName
  | repeatedGroupName
  | missingOperand
  | badCount
  /-- Written out, the expression is over the limit on size. -/
  | tooLarge
  /-- Nothing was read where something has to be. -/
  | stalled
  deriving DecidableEq, Repr

inductive Flag where
  | ignoreCase
  | multiLine
  | dotAll
  | swapGreed
  | extended
  | unicode
  deriving DecidableEq, Repr

def Flag.ofChar : Char → Option Flag
  | 'i' => some .ignoreCase
  | 'm' => some .multiLine
  | 's' => some .dotAll
  | 'U' => some .swapGreed
  | 'x' => some .extended
  | 'u' => some .unicode
  | _ => none

/-- A flag and whether it is turned on. -/
abbrev FlagChange := Flag × Bool

structure Flags where
  ignoreCase : Bool := false
  multiLine : Bool := false
  dotAll : Bool := false
  swapGreed : Bool := false
  extended : Bool := false
  deriving DecidableEq, Repr

/-- Classes always know of Unicode, so the flag for it changes nothing; it cannot be cleared. -/
def Flags.apply (flags : Flags) : FlagChange → Flags
  | (.ignoreCase, on) => { flags with ignoreCase := on }
  | (.multiLine, on) => { flags with multiLine := on }
  | (.dotAll, on) => { flags with dotAll := on }
  | (.swapGreed, on) => { flags with swapGreed := on }
  | (.extended, on) => { flags with extended := on }
  | (.unicode, _) => flags

def Flags.applyAll (flags : Flags) (changes : List FlagChange) : Flags :=
  changes.foldl Flags.apply flags

inductive Token where
  | set (s : CharSet)
  /-- A dot, which stands for a newline only if a flag says so. -/
  | dot
  /-- A caret, the start of the text or of a line. -/
  | caret
  /-- A dollar sign, the end of the text or of a line. -/
  | dollar
  | anchor (a : Anchor)
  | openGroup (changes : List FlagChange) (name : Option String)
  | closeGroup
  | bar
  /-- Flags for the rest of the group. -/
  | setFlags (changes : List FlagChange)
  /-- The token before it, so many times; a lazy one prefers fewer. -/
  | quantifier (least : Nat) (most : Option Nat) (isLazy : Bool)
  deriving DecidableEq, Repr

/-! ## Blanks and comments -/

/-- The text after the end of the line. -/
def skipLine : List Char → List Char
  | [] => []
  | c :: cs => if c = '\n' then cs else skipLine cs

theorem length_skipLine_le (cs : List Char) : (skipLine cs).length ≤ cs.length := by
  fun_induction skipLine cs with
  | case1 => simp
  | case2 => simp
  | case3 => simp; omega

def skipExtended : List Char → List Char
  | [] => []
  | c :: cs =>
    if Text.isBlank c then skipExtended cs
    else if c = '#' then skipExtended (skipLine cs)
    else c :: cs
termination_by cs => cs.length
decreasing_by
  · simp
  · have := length_skipLine_le cs; simp; omega

/-- In the extended form blanks mean nothing and a number sign starts a comment. -/
def skipBlanks (extended : Bool) (cs : List Char) : List Char :=
  if extended then skipExtended cs else cs

theorem length_skipExtended_le (cs : List Char) : (skipExtended cs).length ≤ cs.length := by
  fun_induction skipExtended cs with
  | case1 => simp
  | case2 c cs _ ih => simp; omega
  | case3 cs _ ih => have := length_skipLine_le cs; simp; omega
  | case4 => simp

theorem length_skipBlanks_le (extended : Bool) (cs : List Char) :
    (skipBlanks extended cs).length ≤ cs.length := by
  unfold skipBlanks
  split
  · exact length_skipExtended_le cs
  · simp

/-- Drops the blanks in front, which are allowed around a count in any form. -/
def dropBlanks (cs : List Char) : List Char := cs.dropWhile Text.isBlank

end Descent.Regex
