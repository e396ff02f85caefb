import HttpPipeline.Document.Value
import HttpPipeline.Text.Numeral

/-! # JSON documents

  Reading goes in two passes, each of which takes one step per symbol. The first turns
  characters into tokens; the second turns tokens into a value, with the lists and tables
  that are still open on a stack. Texts with half of a surrogate pair are told apart, since
  where such a text is not used it does no harm.
-/

namespace HttpPipeline.Document.Json

/-! ## §1. Texts -/

/-- A part of a text: a character, or half of a surrogate pair. -/
inductive Piece where
  /-- A character. -/
  | char (c : Char)
  /-- Half of a surrogate pair, which only an escape can write. -/
  | half (unit : Nat)
  deriving DecidableEq, Repr

/-- Whether a UTF-16 unit is the first half of a surrogate pair. -/
def isFirstHalf (unit : Nat) : Bool :=
  0xD800 ≤ unit && unit < 0xDC00

/-- Whether a UTF-16 unit is the second half of a surrogate pair. -/
def isSecondHalf (unit : Nat) : Bool :=
  0xDC00 ≤ unit && unit < 0xE000

/-- The part of a text that an escaped UTF-16 unit stands for. -/
def Piece.ofUnit (unit : Nat) : Piece :=
  if isFirstHalf unit || isSecondHalf unit then .half unit else .char (Char.ofNat unit)

/-- The character of a surrogate pair. -/
def joinHalves (first second : Nat) : Char :=
  Char.ofNat (0x10000 + (first - 0xD800) * 0x400 + (second - 0xDC00))

/-- The characters of a text, if every half stands in a pair. -/
def joinPieces : List Piece → Option (List Char)
  | [] => some []
  | .char c :: rest => (joinPieces rest).map (c :: ·)
  | .half first :: .half second :: rest =>
    if isFirstHalf first && isSecondHalf second then
      (joinPieces rest).map (joinHalves first second :: ·)
    else none
  | .half _ :: _ => none

/-! ## §2. Tokens -/

/-- A symbol of the format. -/
inductive Token where
  /-- Opens a list. -/
  | openList
  /-- Closes a list. -/
  | closeList
  /-- Opens a table. -/
  | openTable
  /-- Closes a table. -/
  | closeTable
  /-- Stands between a name and its value. -/
  | colon
  /-- Stands between items or members. -/
  | comma
  /-- A text, or none if it is broken. -/
  | text (s : Option String)
  /-- A number or a word. -/
  | word (cs : List Char)
  deriving DecidableEq, Repr

/-- What the scanner is in the middle of. What was read so far is kept in reverse. -/
inductive Mode where
  /-- Nothing. -/
  | between
  /-- A number or a word. -/
  | word (read : List Char)
  /-- A text. -/
  | text (read : List Piece)
  /-- An escape, after its backslash. -/
  | escape (read : List Piece)
  /-- An escape with hexadecimal digits, of which `left` and one more are still to come. -/
  | digits (read : List Piece) (left value : Nat)
  deriving DecidableEq, Repr

/-- Whether a character may stand between tokens. -/
def isSpace (c : Char) : Bool :=
  c = ' ' || c = '\t' || c = '\n' || c = '\r'

/-- The token that is one character long. -/
def punctuation? : Char → Option Token
  | '[' => some .openList
  | ']' => some .closeList
  | '\x7b' => some .openTable
  | '\x7d' => some .closeTable
  | ':' => some .colon
  | ',' => some .comma
  | _ => none

/-- The character that an escape of one letter stands for. -/
def escaped? : Char → Option Char
  | '"' => some '"'
  | '\\' => some '\\'
  | '/' => some '/'
  | 'b' => some '\x08'
  | 'f' => some '\x0c'
  | 'n' => some '\n'
  | 'r' => some '\r'
  | 't' => some '\t'
  | _ => none

/-- The value of a hexadecimal digit in any case. -/
def hexValue? (c : Char) : Option Nat :=
  if '0' ≤ c && c ≤ '9' then some (c.toNat - '0'.toNat)
  else if 'a' ≤ c && c ≤ 'f' then some (c.toNat - 'a'.toNat + 10)
  else if 'A' ≤ c && c ≤ 'F' then some (c.toNat - 'A'.toNat + 10)
  else none

/-- Reads a character between tokens, after the tokens `before`, the last one first. -/
def scanBetween (before : List Token) (c : Char) : List Token × Mode :=
  if isSpace c then (before, .between)
  else if c = '"' then (before, .text [])
  else
    match punctuation? c with
    | some token => (token :: before, .between)
    | none => (before, .word [c])

/-- Reads one character, after the tokens `before`, the last one first. -/
def scanChar (before : List Token) : Mode → Char → Option (List Token × Mode)
  | .between, c => some (scanBetween before c)
  | .word read, c =>
    if isSpace c || c = '"' || (punctuation? c).isSome then
      some (scanBetween (.word read.reverse :: before) c)
    else some (before, .word (c :: read))
  | .text read, c =>
    if c = '"' then
      some (.text ((joinPieces read.reverse).map String.ofList) :: before, .between)
    else if c = '\\' then some (before, .escape read)
    else if c.toNat < 0x20 then none
    else some (before, .text (.char c :: read))
  | .escape read, c =>
    if c = 'u' then some (before, .digits read 3 0)
    else (escaped? c).map fun e => (before, .text (.char e :: read))
  | .digits read left value, c =>
    (hexValue? c).map fun digit =>
      let value := value * 16 + digit
      match left with
      | 0 => (before, .text (Piece.ofUnit value :: read))
      | left + 1 => (before, .digits read left value)

/-- Reads characters, after the tokens `before`, the last one first. -/
def scan (before : List Token) : Mode → List Char → Option (List Token)
  | .between, [] => some before.reverse
  | .word read, [] => some (.word read.reverse :: before).reverse
  | _, [] => none
  | mode, c :: cs =>
    match scanChar before mode c with
    | some (before, mode) => scan before mode cs
    | none => none

/-! ## §3. Numbers and words -/

/-- Whether `cs` is one or more digits. -/
def isDigits (cs : List Char) : Bool :=
  !cs.isEmpty && cs.all Char.isDigit

/-- Whether `cs` is an exponent: a letter, perhaps a sign, and digits. -/
def isExponent : List Char → Bool
  | c :: sign :: cs =>
    (c = 'e' || c = 'E') &&
      (if sign = '+' || sign = '-' then isDigits cs else isDigits (sign :: cs))
  | _ => false

/-- Whether `cs` is what may follow the whole part of a number that has a fraction or an
exponent. -/
def isFractionEnd : List Char → Bool
  | '.' :: cs =>
    let exponent := cs.dropWhile Char.isDigit
    isDigits (cs.takeWhile Char.isDigit) && (exponent.isEmpty || isExponent exponent)
  | cs => isExponent cs

/-- Whether `cs` is the whole part of a number: digits, of which the first is no zero unless
it is the only one. -/
def isWholePart (cs : List Char) : Bool :=
  isDigits cs && (cs.length = 1 || cs.head? != some '0')

/-- The number that `cs` writes without its sign. -/
def unsigned? (negative : Bool) (cs : List Char) : Option Value :=
  let whole := cs.takeWhile Char.isDigit
  let rest := cs.dropWhile Char.isDigit
  let numeral := String.ofList (if negative then '-' :: cs else cs)
  if !isWholePart whole then none
  else if rest.isEmpty then
    let n := Text.decimalValue 0 whole
    if !negative then some (.integer n)
    else if n = 0 then some (.fraction numeral)
    else some (.integer (-n))
  else if isFractionEnd rest then some (.fraction numeral)
  else none

/-- The number that `cs` writes. A zero with a minus sign is no whole number. -/
def number? : List Char → Option Value
  | '-' :: cs => unsigned? true cs
  | cs => unsigned? false cs

/-- The value that a number or a word stands for. -/
def wordValue? (cs : List Char) : Option Value :=
  if cs = "null".toList then some .null
  else if cs = "true".toList then some (.bool true)
  else if cs = "false".toList then some (.bool false)
  else number? cs

/-! ## §4. Values -/

/-- A list or a table that is open around a value, with what came before it in reverse. -/
inductive Frame where
  /-- A list, with the items before. -/
  | item (before : List Value)
  /-- A table, with the members before and the value's own name. -/
  | member (before : List (Option String × Value)) (name : Option String)

/-- What is read so far, and what may come next. The frames around are on a stack, the
innermost first. -/
inductive State where
  /-- A value has to come. -/
  | value (stack : List Frame)
  /-- A list was opened. -/
  | listStart (stack : List Frame)
  /-- An item of a list has been read. -/
  | listNext (items : List Value) (stack : List Frame)
  /-- A table was opened. -/
  | tableStart (stack : List Frame)
  /-- A member of a table has been read. -/
  | tableNext (members : List (Option String × Value)) (stack : List Frame)
  /-- A name has to come. -/
  | memberName (members : List (Option String × Value)) (stack : List Frame)
  /-- The colon after a name has to come. -/
  | colon (members : List (Option String × Value)) (name : Option String)
      (stack : List Frame)
  /-- The whole document has been read. -/
  | finished (v : Value)

/-- The state after a value, which stands within the given frames. -/
def State.place (v : Value) : List Frame → State
  | [] => .finished v
  | .item before :: stack => .listNext (v :: before) stack
  | .member before name :: stack => .tableNext ((name, v) :: before) stack

/-- The state after the first token of a value. -/
def State.start? (stack : List Frame) : Token → Option State
  | .openList => some (.listStart stack)
  | .openTable => some (.tableStart stack)
  | .text s => some (.place (.ofText s) stack)
  | .word cs => (wordValue? cs).map fun v => .place v stack
  | _ => none

/-- The state after one more token. -/
def State.step? : State → Token → Option State
  | .value stack, token => start? stack token
  | .listStart stack, .closeList => some (.place (.list []) stack)
  | .listStart stack, token => start? (.item [] :: stack) token
  | .listNext items stack, .comma => some (.value (.item items :: stack))
  | .listNext items stack, .closeList => some (.place (.list items.reverse) stack)
  | .tableStart stack, .closeTable => some (.place (.table []) stack)
  | .tableStart stack, .text name => some (.colon [] name stack)
  | .tableNext members stack, .comma => some (.memberName members stack)
  | .tableNext members stack, .closeTable => some (.place (.table members.reverse) stack)
  | .memberName members stack, .text name => some (.colon members name stack)
  | .colon members name stack, .colon => some (.value (.member members name :: stack))
  | _, _ => none

/-- The state after more tokens. -/
def State.run? : State → List Token → Option State
  | state, [] => some state
  | state, token :: tokens => (state.step? token).bind fun next => next.run? tokens

/-- The value that tokens stand for. -/
def ofTokens? (tokens : List Token) : Option Value :=
  match (State.value []).run? tokens with
  | some (.finished v) => some v
  | _ => none

/-- Reads a document. -/
def parse? (s : String) : Option Value :=
  (scan [] .between s.toList).bind ofTokens?

end HttpPipeline.Document.Json
