/-! # Numerals

  Whole numbers as text: the decimal numerals that a bounded count is read from, and the
  hexadecimal numerals that classification codes are shown in.
-/

namespace HttpPipeline.Text

/-! ## §1. Reading decimal digits -/

/-- The number that a run of decimal digits names, read after the digits of `acc`. -/
def decimalValue (acc : Nat) : List Char → Nat
  | [] => acc
  | c :: cs => decimalValue (10 * acc + (c.toNat - '0'.toNat)) cs

/-- The number that `cs` names, if `cs` is one or more ASCII digits. -/
def digits? (cs : List Char) : Option Nat :=
  if !cs.isEmpty && cs.all Char.isDigit then some (decimalValue 0 cs) else none

/-- The digits of a numeral without the one plus sign that may precede them. -/
def dropPlus : List Char → List Char
  | '+' :: cs => cs
  | cs => cs

/-- The count below `bound` that a text names: an optional plus sign and one or more ASCII
digits, with nothing around them. -/
def countBelow? (bound : Nat) (s : String) : Option Nat :=
  match digits? (dropPlus s.toList) with
  | some n => if n < bound then some n else none
  | none => none

/-! ## §2. Writing hexadecimal digits -/

/-- The lower-case hexadecimal digits of a number, the most significant one first. -/
def hexDigits (n : Nat) : List Char :=
  Nat.toDigits 16 n

/-- The hexadecimal numeral of a number, with at least `width` digits. -/
def hexNumeral (width n : Nat) : String :=
  let digits := hexDigits n
  String.ofList (List.replicate (width - digits.length) '0' ++ digits)

/-- The code that a signed 32-bit number has as an unsigned one. -/
def unsigned32 (n : Int) : Nat :=
  (n % (UInt32.size : Int)).toNat

end HttpPipeline.Text
