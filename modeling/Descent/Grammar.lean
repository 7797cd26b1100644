import Descent.Expression
import Descent.Parser.Choice
import Descent.Parser.Recursion
import Descent.Parser.Repetition
import Descent.Text.Numeral

/-!
# The grammar of expressions

    expression = boolean | number | call
    boolean    = "true" | "false"
    number     = ( "+" | "-" )? digit+
    identifier = ( letter | "_" ) ( letter | digit | "_" )*
    call       = identifier "(" ( expression ( "," expression )* )? ")"

Letters and digits are those of ASCII. The alternatives are tried in the order written; `boolean`
comes first, so `true` and `false` are never read as the start of a call. A number has to fit into
64 bits with a sign, and one that a decimal point follows is refused rather than cut short. The
argument list of a call is one nesting level deeper than the call.
-/

namespace Descent

/-! ## Numbers -/

/-- Why the text at a cursor is not read as a number. -/
inductive NumberFault where
  | missing
  | fraction
  | tooSmall (text : String)
  | tooLarge (text : String)
  deriving DecidableEq, Repr

/-- What a parser says that it expected on account of the fault. -/
def NumberFault.expected : NumberFault → String
  | .missing => "number"
  | .fraction => "integer without fractional part"
  | .tooSmall text =>
    "integer in i64 range, found " ++ text ++ " (number too small to fit in target type)"
  | .tooLarge text =>
    "integer in i64 range, found " ++ text ++ " (number too large to fit in target type)"

namespace Grammar

/-- The sign that the text starts with, if any. -/
def signOf : List Char → List Char
  | '+' :: _ => ['+']
  | '-' :: _ => ['-']
  | _ => []

/-- The sign and the digits at the front of the text; none if there is no digit. -/
def numeral (cs : List Char) : Option (List Char × List Char) :=
  let sign := signOf cs
  let digits := (cs.drop sign.length).takeWhile Char.isDigit
  if digits.isEmpty then none else some (sign, digits)

def signedValue (sign digits : List Char) : Int :=
  if sign = ['-'] then -(Text.decimalValue digits : Int) else Text.decimalValue digits

/-- The least number that an expression may hold. -/
def least : Int := -9223372036854775808

/-- The greatest number that an expression may hold. -/
def greatest : Int := 9223372036854775807

def number : Parser Int := fun c =>
  match numeral c.ahead with
  | none => refuse .missing c
  | some (sign, digits) =>
    let text := sign ++ digits
    let next := c.forward text.length
    let value := signedValue sign digits
    if next.ahead.head? = some '.' then refuse .fraction next
    else if value < least then refuse (.tooSmall (String.ofList text)) next
    else if greatest < value then refuse (.tooLarge (String.ofList text)) next
    else .succeed value next
where
  refuse (fault : NumberFault) (c : Cursor) : Run Int :=
    .fail { expected := fault.expected, position := c.position }

/-! ## Names and truth values -/

def isNameStart (c : Char) : Bool := c.isAlpha || c = '_'

def isNameChar (c : Char) : Bool := c.isAlphanum || c = '_'

def identifier : Parser String := fun c =>
  match c.ahead with
  | first :: others =>
    if isNameStart first then
      let name := first :: others.takeWhile isNameChar
      .succeed (String.ofList name) (c.forward name.length)
    else missing c
  | [] => missing c
where
  missing (c : Cursor) : Run String := .fail { expected := "identifier", position := c.position }

def boolean : Parser Bool :=
  (Parser.choice [Parser.literal "true", Parser.literal "false"]).map (· = "true")

/-! ## Calls and expressions -/

/-- A call whose arguments are read by `argument`. -/
def callOf (argument : Parser Expression) : Parser (String × List Expression) :=
  Parser.both identifier <| Parser.nested <|
    Parser.bracket (Parser.literal "(")
      (Parser.separatedList (Parser.literal ",") argument) (Parser.literal ")")

/-- An expression whose calls have their arguments read by `argument`. -/
def expressionOf (argument : Parser Expression) : Parser Expression :=
  Parser.choice
    [boolean.map .boolean,
      number.map .number,
      (callOf argument).map .ofCall]

def expression : Parser Expression := Parser.fix expressionOf

def call : Parser (String × List Expression) := callOf expression

end Grammar

end Descent
