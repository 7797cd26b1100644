/-!
# Numerals

The number that a row of digits stands for, read from the most significant digit on.
-/

namespace Descent.Text

/-- The value of a row of digits in the given base. -/
def digitsValue (base : Nat) (digits : List Nat) : Nat :=
  digits.foldl (fun n d => base * n + d) 0

/-- The value of a row of ASCII digits. -/
def decimalValue (cs : List Char) : Nat := digitsValue 10 (cs.map fun c => c.toNat - '0'.toNat)

end Descent.Text
