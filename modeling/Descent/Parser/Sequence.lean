import Descent.Parser

/-!
# Sequences

Parsers run one after the other, each from the cursor the one before it left. They differ in
which values they keep and in how they name a failure of a part.

* `both p q` keeps the two values and leaves failures as they are;
* `discardLeft left main` keeps the value of `main`;
* `bracket opening content closing` keeps the value of `content`;
* `nested p` runs `p` one level deeper and comes back up after a success.
-/

namespace Descent.Parser

variable {α β γ : Type}

def both (p : Parser α) (q : Parser β) : Parser (α × β) := fun c =>
  (p c).andThen fun a c => (q c).map fun b => (a, b)

/-- Runs `left` and then `main`, whose value alone is kept. -/
def followedBy (left : Parser α) (main : Parser β) : Parser β := fun c =>
  (left c).andThen fun _ c => main c

/-- Like `followedBy`; a failure of either part says that it arose here. -/
def discardLeft (left : Parser α) (main : Parser β) : Parser β := fun c =>
  (followedBy left main c).mapFailure (·.inside "DiscardLeft")

/-- `content` between two delimiters; a failure of any part says that it arose here. -/
def bracket (opening : Parser α) (content : Parser β) (closing : Parser γ) : Parser β := fun c =>
  Run.mapFailure (·.inside "Bracket") <|
    (opening c).andThen fun _ c =>
      (content c).andThen fun b c =>
        (closing c).map fun _ => b

/-- `p` one nesting level deeper. At the depth limit it fails without running `p`. -/
def nested (p : Parser α) : Parser α := fun c =>
  (descend c).andThen fun _ c => (p c).andThen fun a c => .succeed a c.ascend

end Descent.Parser
