import Descent.Text.Lines
import Descent.Text.Offset

/-!
# Locations

A location is a place in a text, kept as the text before it and the text after it. It is made from
a byte offset: one past the end is moved to the end, and one inside a character to the start of
that character. Lines are counted from one. The column is the offset in bytes from the start of
the line, which does not depend on how wide anything is shown.

* `ofOffset text offset` : the location, and `position`, `line` and `column` to describe it;
* `contextLines` : the lines around it, numbered, with a pointer below its own line.
-/

namespace Descent

structure Location where
  before : List Char
  after : List Char
  deriving DecidableEq, Repr

namespace Location

def ofOffset (text : String) (offset : Nat) : Location :=
  let n := Text.charsWithin offset text.toList
  { before := text.toList.take n, after := text.toList.drop n }

/-- The whole text, whatever the place in it. -/
def text (l : Location) : List Char := l.before ++ l.after

def position (l : Location) : Nat := Text.byteLength l.before

def line (l : Location) : Nat := l.before.count '\n' + 1

/-- The part of the line that is before the location. -/
def lineBefore (l : Location) : List Char := (l.before.reverse.takeWhile (· ≠ '\n')).reverse

def column (l : Location) : Nat := Text.byteLength l.lineBefore

@[simp] theorem text_ofOffset (text : String) (offset : Nat) :
    (ofOffset text offset).text = text.toList := by
  simp [Location.text, ofOffset]

/-- An offset between two characters is not moved. -/
theorem position_ofOffset {text : String} {as bs : List Char} (h : text.toList = as ++ bs) :
    (ofOffset text (Text.byteLength as)).position = Text.byteLength as := by
  simp [ofOffset, position, h, Text.charsWithin_byteLength]

/-! ## The lines around a location -/

/-- What stands in front of line `n`; the line of the location is marked. -/
def margin (l : Location) (n : Nat) : String :=
  (if n = l.line then "  > " else "    ") ++ toString n ++ " | "

/-- The line that points at the location from below. -/
def pointer (l : Location) : String :=
  String.ofList (List.replicate ((l.margin l.line).utf8ByteSize + l.column) ' ') ++ "^--- here"

/-- Line `n` with its margin, and the pointer below it if it is the line of the location. -/
def shown (l : Location) (n : Nat) (content : List Char) : List String :=
  (l.margin n ++ String.ofList content) :: if n = l.line then [l.pointer] else []

/-- Those of the lines that have a number from `first` to `last`, if `n` is the number of the first of
them. -/
def shownBetween (l : Location) (first last : Nat) : Nat → List (List Char) → List String
  | _, [] => []
  | n, content :: rest =>
    if n < first then l.shownBetween first last (n + 1) rest
    else if last < n then []
    else l.shown n content ++ l.shownBetween first last (n + 1) rest

/-- Up to two lines before the line of the location, that line, and up to two after it. -/
def contextLines (l : Location) : List String :=
  l.shownBetween (max 1 (l.line - 2)) (l.line + 2) 1 (Text.lines l.text)

end Location

end Descent
