import HttpPipeline.Document.Json

/-! # Numbers, truth values and dates in TOML

  A value that is neither text nor list nor table is one word, except that a date and a time
  may have a blank between them. Every function here takes a whole word and says what it
  stands for, if it stands for anything.
-/

namespace HttpPipeline.Document.Toml

/-! ## §1. Digits -/

/-- The digits of a word in which single underscores may stand between digits. -/
def groupedDigits? (isDigit : Char → Bool) : List Char → Option (List Char)
  | [] => none
  | [c] => if isDigit c then some [c] else none
  | c :: '_' :: cs => if isDigit c then (groupedDigits? isDigit cs).map (c :: ·) else none
  | c :: cs => if isDigit c then (groupedDigits? isDigit cs).map (c :: ·) else none

/-- The digits of the whole part of a decimal number: no zero stands before other digits. -/
def wholeDigits? (cs : List Char) : Option (List Char) :=
  if cs = ['0'] then some cs
  else if cs.head? = some '0' then none
  else groupedDigits? Char.isDigit cs

/-- The number that digits to a base name. -/
def digitsValue (base : Nat) (digits : List Char) : Nat :=
  digits.foldl (fun n c => n * base + (Json.hexValue? c).getD 0) 0

/-- The sign of a word, which is negative for `true`, and the word without it. -/
def splitSign : List Char → Bool × List Char
  | '-' :: cs => (true, cs)
  | '+' :: cs => (false, cs)
  | cs => (false, cs)

/-! ## §2. Whole numbers -/

/-- Whether a number fits into 64 bits with a sign. -/
def isWord64 (n : Int) : Bool :=
  Int64.minValue.toInt ≤ n && n ≤ Int64.maxValue.toInt

/-- The whole number that a word with digits to a base stands for. -/
def based? (base : Nat) (isDigit : Char → Bool) (cs : List Char) : Option Int :=
  (groupedDigits? isDigit cs).map fun digits => (digitsValue base digits : Nat)

/-- The whole number that a word stands for. -/
def integer? (cs : List Char) : Option Value :=
  let n? : Option Int := match cs with
    | '0' :: 'x' :: cs => based? 16 (fun c => (Json.hexValue? c).isSome) cs
    | '0' :: 'o' :: cs => based? 8 (fun c => '0' ≤ c && c ≤ '7') cs
    | '0' :: 'b' :: cs => based? 2 (fun c => c = '0' || c = '1') cs
    | cs =>
      let (negative, cs) := splitSign cs
      (wholeDigits? cs).map fun digits =>
        let n : Int := Text.decimalValue 0 digits
        if negative then -n else n
  n?.bind fun n => if isWord64 n then some (.integer n) else none

/-! ## §3. Other numbers -/

/-- The least number that is too large for a double: it is rounded to infinity. -/
def doubleLimit : Nat := Nat.pow 2 1024 - Nat.pow 2 970

/-- Whether `digits` times ten to the `exponent` is rounded to infinity as a double. -/
def overflowsDouble (digits : List Char) (exponent : Int) : Bool :=
  let digits := digits.dropWhile (· = '0')
  let size := exponent + digits.length
  if digits.isEmpty || size ≤ 308 then false
  else if 311 ≤ size then true
  else
    let n := Text.decimalValue 0 digits
    if 0 ≤ exponent then doubleLimit ≤ n * Nat.pow 10 exponent.toNat
    else doubleLimit * Nat.pow 10 (-exponent).toNat ≤ n

/-- The exponent that is written after its letter. -/
def exponentValue? (cs : List Char) : Option Int :=
  let (negative, cs) := splitSign cs
  (groupedDigits? Char.isDigit cs).map fun digits =>
    let n : Int := Text.decimalValue 0 digits
    if negative then -n else n

/-- Whether a character is the letter before an exponent. -/
def isExponentLetter (c : Char) : Bool :=
  c = 'e' || c = 'E'

/-- The digits of a fraction, which are none if there is no fraction. -/
def fractionDigits? : List Char → Option (List Char)
  | [] => some []
  | '.' :: cs => groupedDigits? Char.isDigit cs
  | _ => none

/-- The number with a fraction or an exponent that a word stands for. A positive number that
is too large for a double is none. -/
def fraction? (cs : List Char) : Option Value := do
  let (negative, unsigned) := splitSign cs
  let mantissa := unsigned.takeWhile fun c => !isExponentLetter c
  let marked := unsigned.dropWhile fun c => !isExponentLetter c
  let whole ← wholeDigits? (mantissa.takeWhile (· ≠ '.'))
  let part ← fractionDigits? (mantissa.dropWhile (· ≠ '.'))
  let exponent ← match marked with
    | [] => if part.isEmpty then none else some 0
    | _ :: cs => exponentValue? cs
  if !negative && overflowsDouble (whole ++ part) (exponent - part.length) then none
  else return .fraction (String.ofList cs)

/-- The number that is written as a word. -/
def namedNumber? (cs : List Char) : Option Value :=
  let unsigned := (splitSign cs).2
  if unsigned = "inf".toList || unsigned = "nan".toList then some (.fraction (String.ofList cs))
  else none

/-! ## §4. Dates and times -/

/-- The number of exactly two digits from `low` up to `high`. -/
def twoDigits? (low high : Nat) (cs : List Char) : Option Nat :=
  if cs.length = 2 && cs.all Char.isDigit then
    let n := Text.decimalValue 0 cs
    if low ≤ n && n ≤ high then some n else none
  else none

/-- Whether a year has a leap day. -/
def isLeapYear (year : Nat) : Bool :=
  year % 4 = 0 && (year % 100 ≠ 0 || year % 400 = 0)

/-- How many days a month has. -/
def daysInMonth (year month : Nat) : Nat :=
  if month = 2 then if isLeapYear year then 29 else 28
  else if month = 4 || month = 6 || month = 9 || month = 11 then 30
  else 31

/-- Whether a word is a date: a year of four digits, a month and a day. -/
def isDate (cs : List Char) : Bool :=
  let yearDigits := cs.take 4
  match cs.drop 4 with
  | ['-', m₁, m₂, '-', d₁, d₂] =>
    yearDigits.all Char.isDigit &&
      match twoDigits? 1 12 [m₁, m₂], twoDigits? 1 31 [d₁, d₂] with
      | some month, some day => day ≤ daysInMonth (Text.decimalValue 0 yearDigits) month
      | _, _ => false
  | _ => false

/-- Whether a word is nothing, or a fraction of a second. -/
def isSecondFraction : List Char → Bool
  | [] => true
  | '.' :: cs => Json.isDigits cs
  | _ => false

/-- Whether a word is a time of day: hour, minute, second and perhaps a fraction. -/
def isTime : List Char → Bool
  | h₁ :: h₂ :: ':' :: m₁ :: m₂ :: ':' :: s₁ :: s₂ :: cs =>
    (twoDigits? 0 23 [h₁, h₂]).isSome && (twoDigits? 0 59 [m₁, m₂]).isSome &&
      (twoDigits? 0 60 [s₁, s₂]).isSome && isSecondFraction cs
  | _ => false

/-- Whether a character begins the distance of a time from universal time. -/
def isOffsetStart (c : Char) : Bool :=
  c = 'Z' || c = 'z' || c = '+' || c = '-'

/-- Whether a word is nothing, or the distance of a time from universal time. -/
def isOffset : List Char → Bool
  | [] => true
  | ['Z'] | ['z'] => true
  | [sign, h₁, h₂, ':', m₁, m₂] =>
    (sign = '+' || sign = '-') && (twoDigits? 0 23 [h₁, h₂]).isSome &&
      (twoDigits? 0 59 [m₁, m₂]).isSome
  | _ => false

/-- Whether a word is a time of day, perhaps with its distance from universal time. -/
def isOffsetTime (cs : List Char) : Bool :=
  isTime (cs.takeWhile fun c => !isOffsetStart c) &&
    isOffset (cs.dropWhile fun c => !isOffsetStart c)

/-- Whether a word is a date and a time with a letter between them. -/
def isDatetime (cs : List Char) : Bool :=
  isDate (cs.take 10) &&
    match cs.drop 10 with
    | c :: time => (c = 'T' || c = 't') && isOffsetTime time
    | [] => false

/-! ## §5. Words -/

/-- Whether a character ends a word. -/
def endsWord (c : Char) : Bool :=
  c = ' ' || c = '\t' || c = '\n' || c = '\r' || c = ',' || c = ']' || c = '\x7d' || c = '#'

/-- The value that a word stands for. -/
def wordValue? (cs : List Char) : Option Value :=
  if cs = "true".toList then some (.bool true)
  else if cs = "false".toList then some (.bool false)
  else if isDate cs || isTime cs || isDatetime cs then some .datetime
  else namedNumber? cs <|> integer? cs <|> fraction? cs

/-- Reads a value that is one word, or a date, a blank and a time. -/
def scalar? (cs : List Char) : Option (Value × List Char) :=
  let word := cs.takeWhile fun c => !endsWord c
  let rest := cs.dropWhile fun c => !endsWord c
  match rest with
  | ' ' :: c :: more =>
    if isDate word && c.isDigit then
      let time := (c :: more).takeWhile fun c => !endsWord c
      if isOffsetTime time then
        some (.datetime, (c :: more).dropWhile fun c => !endsWord c)
      else none
    else (wordValue? word).map fun v => (v, rest)
  | _ => (wordValue? word).map fun v => (v, rest)

end HttpPipeline.Document.Toml
