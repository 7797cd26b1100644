import Descent.Parser
import Descent.Regex.Matcher
import Descent.Regex.Reader

/-!
# Patterns

A pattern is a parser given by a regular expression. The expression is anchored at the cursor and
sees the text ahead of it only, never the text that was passed. Among the matches that start at
the cursor the preferred one is taken, which need not be the longest.

The expression is read once, when the pattern is made. If it cannot be read, the pattern fails
wherever it is tried.
-/

namespace Descent

/-- Matches `r` at the cursor. A match that starts later in the text ahead does not count. -/
def Cursor.matchPattern (c : Cursor) (r : Regex) (label : String) :
    Except Failure (String × Cursor) :=
  match r.find c.ahead with
  | some { start := 0, text } => .ok (String.ofList text, c.forward text.length)
  | _ => .error { expected := label, position := c.position }

structure Pattern where
  label : String
  regex : Except Regex.Fault Regex

namespace Pattern

/-- The written form that ties all of `source` to the start of a text. -/
def anchored (source : String) : String := "^(?:" ++ source ++ ")"

def ofSource (source label : String) : Pattern :=
  { label, regex := Regex.ofString (anchored source) }

/-- The pattern of `source` as it stands, which is anchored only in that a match has to start at
the cursor. -/
def unanchored (source label : String) : Pattern := { label, regex := Regex.ofString source }

/-- What a pattern that cannot be read expects; the fault itself is left out. -/
def unreadable : String := "valid pattern (...)"

def parser (p : Pattern) : Parser String := fun c =>
  match p.regex with
  | .ok r => .silent (c.matchPattern r p.label)
  | .error _ => .fail { expected := unreadable, position := c.position }

end Pattern

end Descent
