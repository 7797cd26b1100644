import Descent.Expression
import Descent.Text.Offset

/-!
# Values

What parsers of different types come to when they have to share one type, as the parts of a form
do.
-/

namespace Descent

inductive Value where
  | nothing
  | truth (b : Bool)
  | integer (i : Int)
  | count (n : Int)
  | text (s : String)
  | expression (e : Expression)
  | list (values : List Value)
  | pair (first second : Value)
  | tagged (name : String) (v : Value)

/-- The size of a text in bytes or of a list in elements; other values have none and get `-1`. -/
def Value.length : Value → Int
  | .text s => Text.byteLength s.toList
  | .list values => values.length
  | _ => -1

end Descent
