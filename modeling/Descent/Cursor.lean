import Descent.Failure
import Descent.Text.Offset

/-!
# Cursors

A cursor is a place in a text together with a nesting depth and its limit. The text is kept in two
parts, what was passed (nearest character first) and what is still ahead, so a cursor always
stands between two characters. Every operation makes a new cursor; one that fails leaves the
caller with the cursor it had.

* `forward n` passes `n` characters, and every other move is a case of it;
* `advance n` passes as many whole characters as fit into `n` bytes;
* `matchLiteral s` passes `s` when it stands next;
* `descend` and `ascend` change the depth, and `descend` fails fatally at the limit.
-/

namespace Descent

structure Cursor where
  passed : List Char
  ahead : List Char
  depth : Nat
  maxDepth : Nat
  deriving DecidableEq, Repr

/-- How deep expressions may nest unless something else is asked for. -/
def defaultMaxDepth : Nat := 64

namespace Cursor

def atStart (text : String) (maxDepth : Nat := defaultMaxDepth) : Cursor :=
  { passed := [], ahead := text.toList, depth := 0, maxDepth }

/-- The whole text, whatever the place in it. -/
def text (c : Cursor) : String := String.ofList (c.passed.reverse ++ c.ahead)

/-- The offset in bytes from the start of the text. -/
def position (c : Cursor) : Nat := Text.byteLength c.passed

def remaining (c : Cursor) : String := String.ofList c.ahead

def atEnd (c : Cursor) : Bool := c.ahead.isEmpty

@[simp] theorem text_atStart (text : String) (maxDepth : Nat) : (atStart text maxDepth).text = text :=
  String.ofList_toList

/-! ## Moving -/

/-- Passes `n` characters, or all that are left. -/
def forward (c : Cursor) (n : Nat) : Cursor :=
  { c with passed := (c.ahead.take n).reverse ++ c.passed, ahead := c.ahead.drop n }

/-- Passes at most `n` bytes, stopping short of a character that does not fit. -/
def advance (c : Cursor) (n : Nat) : Cursor :=
  c.forward (Text.charsWithin n c.ahead)

/-- Passes `expected` if the text goes on with it, and gives what was passed. -/
def matchLiteral (c : Cursor) (expected : String) : Except Failure (String × Cursor) :=
  if expected.toList.isPrefixOf c.ahead then
    .ok (expected, c.forward expected.toList.length)
  else
    .error { expected, position := c.position }

/-! ## Nesting -/

/-- One level deeper, unless the limit is reached. -/
def descend (c : Cursor) : Except Failure Cursor :=
  if c.maxDepth ≤ c.depth then
    .error
      { expected := "nesting depth of at most " ++ toString c.maxDepth
        position := c.position
        fatal := true }
  else
    .ok { c with depth := c.depth + 1 }

/-- One level up; at the outermost level nothing changes. -/
def ascend (c : Cursor) : Cursor := { c with depth := c.depth - 1 }

theorem descend_eq_ok {c d : Cursor} (h : c.descend = .ok d) :
    c.depth < c.maxDepth ∧ d = { c with depth := c.depth + 1 } := by
  unfold descend at h
  split at h
  · cases h
  · next hlimit =>
    cases h
    exact ⟨Nat.not_le.1 hlimit, rfl⟩

/-! ## What a move keeps -/

@[simp] theorem text_forward (c : Cursor) (n : Nat) : (c.forward n).text = c.text := by
  simp [text, forward, -String.ofList_append]

@[simp] theorem depth_forward (c : Cursor) (n : Nat) : (c.forward n).depth = c.depth := rfl

@[simp] theorem maxDepth_forward (c : Cursor) (n : Nat) : (c.forward n).maxDepth = c.maxDepth := rfl

@[simp] theorem ahead_forward (c : Cursor) (n : Nat) : (c.forward n).ahead = c.ahead.drop n := rfl

theorem position_forward (c : Cursor) (n : Nat) :
    (c.forward n).position = c.position + Text.byteLength (c.ahead.take n) := by
  simp [position, forward, Nat.add_comm]

end Cursor

end Descent
