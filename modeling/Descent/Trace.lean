import Descent.Failure
import Descent.Text.Quoted

/-!
# Traces

What a parser has to tell about its run, in the order in which it happened: that a choice ran out
of alternatives, and that a repetition stopped because its parser consumed nothing.
-/

namespace Descent

inductive Event where
  /-- No alternative of a choice matched at `position`; `reported` is the failure it gave. -/
  | choiceExhausted (alternatives position : Nat) (reported : Failure)
  /-- A repetition ended on a success at `position` that consumed nothing. -/
  | repeatStalled (position : Nat)
  deriving DecidableEq, Repr

abbrev Trace := List Event

def Event.message : Event → String
  | .choiceExhausted alternatives position reported =>
    "choice of " ++ toString alternatives ++ " exhausted at " ++ toString position
      ++ ", reporting " ++ Text.quoted reported.expected ++ " at " ++ toString reported.position
  | .repeatStalled position =>
    "repeat stopped on zero-width match at " ++ toString position

/-- An event as a line of a log. -/
def Event.line (e : Event) : String := "TRACE " ++ e.message

end Descent
