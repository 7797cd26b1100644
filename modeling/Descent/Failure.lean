/-!
# Failures

A failure says what was expected and at which offset of the text the expectation was not met. The
offset may lie beyond the place the attempt started from, when a sequence failed part way through:
this is what lets a choice report the alternative that got furthest.

A fatal failure ends the whole parse. Whatever would recover from a failure, by trying another
alternative or by ending a list, passes a fatal one on unchanged.
-/

namespace Descent

structure Failure where
  expected : String
  position : Nat
  fatal : Bool := false
  deriving DecidableEq, Repr

namespace Failure

def message (f : Failure) : String :=
  "expected " ++ f.expected ++ " at offset " ++ toString f.position

/-- Names the construct that the failure arose in; a fatal failure keeps its expectation. -/
def inside (context : String) (f : Failure) : Failure :=
  if f.fatal then f else { f with expected := context ++ ": " ++ f.expected }

@[simp] theorem position_inside (context : String) (f : Failure) :
    (f.inside context).position = f.position := by
  unfold inside; split <;> rfl

@[simp] theorem fatal_inside (context : String) (f : Failure) :
    (f.inside context).fatal = f.fatal := by
  unfold inside; split <;> rfl

theorem inside_of_fatal {f : Failure} (h : f.fatal = true) (context : String) :
    f.inside context = f := by
  simp [inside, h]

end Failure

end Descent
