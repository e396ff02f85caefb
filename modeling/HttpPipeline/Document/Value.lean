/-! # Document values

  What a configuration document holds, whichever of the two formats it is written in.
-/

namespace HttpPipeline.Document

/-- A value in a document. -/
inductive Value where
  /-- No value. -/
  | null
  /-- A truth value. -/
  | bool (b : Bool)
  /-- A whole number, written without fraction and exponent. -/
  | integer (n : Int)
  /-- Any other number, as it is written. -/
  | fraction (numeral : String)
  /-- A text. -/
  | string (s : String)
  /-- A text that holds one half of a surrogate pair, and so no sequence of characters. -/
  | brokenString
  /-- A date, a time or both. -/
  | datetime
  /-- Values in order. -/
  | list (items : List Value)
  /-- Named values in the order they are written, where `none` is the name that is broken as
  `brokenString` is. -/
  | table (members : List (Option String × Value))
  deriving Repr

/-- The value of a text, if it is one. -/
def Value.ofText : Option String → Value
  | some s => .string s
  | none => .brokenString

/-- A table all of whose names are texts. -/
def Value.record (members : List (String × Value)) : Value :=
  .table (members.map fun (name, value) => (some name, value))

end HttpPipeline.Document
