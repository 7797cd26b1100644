import Descent.Text.Combining
import Descent.Text.Printable

/-!
# Quoted text

Text as it is shown in a log: in double quotes, on one line, with nothing invisible in it. A quote
and a backslash are escaped, the usual control characters have their letter, and every other
character that is unprintable or combining is written as `\u{…}` with its code point in lower-case
hexadecimal. All else stands for itself, the single quote included.
-/

namespace Descent.Text

/-- The code point of `c` in braces, without leading zeros. -/
def codePointEscape (c : Char) : List Char :=
  ['\\', 'u', '\x7b'] ++ Nat.toDigits 16 c.toNat ++ ['\x7d']

def quoteChar (c : Char) : List Char :=
  match c with
  | '"' => ['\\', '"']
  | '\\' => ['\\', '\\']
  | '\n' => ['\\', 'n']
  | '\r' => ['\\', 'r']
  | '\t' => ['\\', 't']
  | '\x00' => ['\\', '0']
  | c => if isPrintable c && !isCombining c then [c] else codePointEscape c

/-- `text` between double quotes, each character as `quoteChar` writes it. -/
def quoted (text : String) : String :=
  String.ofList ('"' :: text.toList.flatMap quoteChar ++ ['"'])

end Descent.Text
