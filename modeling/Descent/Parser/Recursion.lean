import Descent.Parser

/-!
# Recursive parsers

A rule that refers to itself is a function from parsers to parsers, and the parser that it defines
is its fixed point. It is reached by recursion on the text ahead: the rule may call itself only
after it has consumed something. A call that has consumed nothing would never end, and is
answered with a fatal failure.
-/

namespace Descent.Parser

variable {α : Type}

/-- The answer to a rule that calls itself before it has consumed anything. -/
def stuck : Parser α := fun c =>
  .fail { expected := "progress before recursion", position := c.position, fatal := true }

/-- The parser that `rule` defines in terms of itself. -/
def fix (rule : Parser α → Parser α) (c : Cursor) : Run α :=
  rule (fun c' => if c'.ahead.length < c.ahead.length then fix rule c' else stuck c') c
termination_by c.ahead.length

end Descent.Parser
