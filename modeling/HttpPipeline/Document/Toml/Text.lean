import HttpPipeline.Document.Json

/-! # Texts and blanks in TOML

  The parts of a TOML document below its values: blanks, comments and line ends, and the four
  kinds of text. A text stands between single or double quotes, on one line or on several. It
  is read by a machine that takes one step per character. Only a text between double quotes
  has escapes.
-/

namespace HttpPipeline.Document.Toml

/-! ## §1. Blanks, comments and line ends -/

/-- Whether a character is a blank within a line. -/
def isSpace (c : Char) : Bool :=
  c = ' ' || c = '\t'

/-- Whether a character may stand in a comment or, quotes and escapes apart, in a text: any
but the control characters, of which the tab is admitted. -/
def isPlain (c : Char) : Bool :=
  c = '\t' || (0x20 ≤ c.toNat && c.toNat ≠ 0x7F)

/-- The characters after the blanks at the start. -/
def skipSpace (cs : List Char) : List Char :=
  cs.dropWhile isSpace

/-- The characters after a line break at the start, if there is one. -/
def lineBreak? : List Char → Option (List Char)
  | '\n' :: cs => some cs
  | '\r' :: '\n' :: cs => some cs
  | _ => none

/-- The characters after a comment at the start, if there is one. -/
def skipComment : List Char → List Char
  | '#' :: cs => cs.dropWhile isPlain
  | cs => cs

/-- The characters after the end of a line: blanks, perhaps a comment, and a line break or
the end of the document. -/
def lineEnd? (cs : List Char) : Option (List Char) :=
  match skipComment (skipSpace cs) with
  | [] => some []
  | cs => lineBreak? cs

/-- The characters after blanks, comments and line breaks, where a comment may be open. -/
def skipTrivia (inComment : Bool) : List Char → List Char
  | '\n' :: cs => skipTrivia false cs
  | '\r' :: '\n' :: cs => skipTrivia false cs
  | c :: cs =>
    if inComment then if isPlain c then skipTrivia true cs else c :: cs
    else if isSpace c then skipTrivia false cs
    else if c = '#' then skipTrivia true cs
    else c :: cs
  | [] => []

/-! ## §2. The machine for texts -/

/-- How a text is written. -/
structure Style where
  /-- The quote around it. -/
  quote : Char
  /-- Whether it may have line breaks, and has three quotes around it. -/
  multiline : Bool
  deriving DecidableEq, Repr

/-- Whether a text has escapes. -/
def Style.escapes (style : Style) : Bool :=
  style.quote = '"'

/-- What the machine is in the middle of. -/
inductive Mode where
  /-- Plain text. -/
  | plain
  /-- A run of quotes, which may close the text. -/
  | quotes (count : Nat)
  /-- A line break, after its carriage return. -/
  | carriage
  /-- An escape, after its backslash. -/
  | escape
  /-- An escape with hexadecimal digits, of which `left` and one more are still to come. -/
  | digits (left value : Nat)
  /-- Blanks that an escaped line break removes; `broken` once the line break has come. -/
  | folding (broken : Bool)
  /-- A line break among such blanks, after its carriage return. -/
  | foldingCarriage
  deriving DecidableEq, Repr

/-- What one character does, after the characters `read`, the last one first. -/
inductive Step where
  /-- The text goes on. -/
  | more (read : List Char) (mode : Mode)
  /-- The text is closed, by this character if it is `consumed` and before it if not. -/
  | closed (read : List Char) (consumed : Bool)
  /-- The character cannot stand here. -/
  | refused

/-- The character that an escape of one letter stands for. -/
def escaped? : Char → Option Char
  | '"' => some '"'
  | '\\' => some '\\'
  | 'b' => some '\x08'
  | 'f' => some '\x0c'
  | 'n' => some '\n'
  | 'r' => some '\r'
  | 't' => some '\t'
  | _ => none

/-- The character with a code point, if it is one: a surrogate is none. -/
def charOfCode? (code : Nat) : Option Char :=
  if code < 0xD800 || (0xE000 ≤ code && code < 0x110000) then some (Char.ofNat code) else none

/-- What a character in plain text does. -/
def plainStep (style : Style) (read : List Char) (c : Char) : Step :=
  if c = style.quote then
    if style.multiline then .more read (.quotes 1) else .closed read true
  else if c = '\\' && style.escapes then .more read .escape
  else if c = '\n' && style.multiline then .more ('\n' :: read) .plain
  else if c = '\r' && style.multiline then .more read .carriage
  else if isPlain c then .more (c :: read) .plain
  else .refused

/-- What a character after the backslash of an escape does. -/
def escapeStep (style : Style) (read : List Char) (c : Char) : Step :=
  if c = 'u' then .more read (.digits 3 0)
  else if c = 'U' then .more read (.digits 7 0)
  else if style.multiline && isSpace c then .more read (.folding false)
  else if style.multiline && c = '\n' then .more read (.folding true)
  else if style.multiline && c = '\r' then .more read .foldingCarriage
  else
    match escaped? c with
    | some e => .more (e :: read) .plain
    | none => .refused

/-- What a character does. A run of quotes closes a text on several lines if it is three to
five long, where the quotes before the last three belong to the text. -/
def step (style : Style) (read : List Char) : Mode → Char → Step
  | .plain, c => plainStep style read c
  | .quotes count, c =>
    if c = style.quote then if count < 5 then .more read (.quotes (count + 1)) else .refused
    else if count < 3 then plainStep style (List.replicate count style.quote ++ read) c
    else .closed (List.replicate (count - 3) style.quote ++ read) false
  | .carriage, c => if c = '\n' then .more ('\n' :: read) .plain else .refused
  | .escape, c => escapeStep style read c
  | .digits left value, c =>
    match Json.hexValue? c with
    | none => .refused
    | some digit =>
      let value := value * 16 + digit
      match left with
      | left + 1 => .more read (.digits left value)
      | 0 =>
        match charOfCode? value with
        | some e => .more (e :: read) .plain
        | none => .refused
  | .folding broken, c =>
    if isSpace c then .more read (.folding broken)
    else if c = '\n' then .more read (.folding true)
    else if c = '\r' then .more read .foldingCarriage
    else if broken then plainStep style read c
    else .refused
  | .foldingCarriage, c => if c = '\n' then .more read (.folding true) else .refused

/-- Reads a text to its end, and gives the characters after it. -/
def scanText (style : Style) (read : List Char) : Mode → List Char →
    Option (String × List Char)
  | .quotes count, [] =>
    if count < 3 then none
    else some (String.ofList (List.replicate (count - 3) style.quote ++ read).reverse, [])
  | _, [] => none
  | mode, c :: cs =>
    match step style read mode c with
    | .more read mode => scanText style read mode cs
    | .closed read consumed =>
      some (String.ofList read.reverse, if consumed then cs else c :: cs)
    | .refused => none

/-- Reads a text on one line, after its opening quote. -/
def lineText? (quote : Char) (cs : List Char) : Option (String × List Char) :=
  scanText ⟨quote, false⟩ [] .plain cs

/-- Reads a text on several lines, after its opening quotes. A line break right after them
does not belong to the text. -/
def blockText? (quote : Char) (cs : List Char) : Option (String × List Char) :=
  scanText ⟨quote, true⟩ [] .plain ((lineBreak? cs).getD cs)

/-- Reads a text. -/
def text? : List Char → Option (String × List Char)
  | '"' :: '"' :: '"' :: cs => blockText? '"' cs
  | '\'' :: '\'' :: '\'' :: cs => blockText? '\'' cs
  | '"' :: cs => lineText? '"' cs
  | '\'' :: cs => lineText? '\'' cs
  | _ => none

/-! ## §3. Names -/

/-- Whether a character may stand in a name without quotes. -/
def isBare (c : Char) : Bool :=
  c.isAlphanum || c = '_' || c = '-'

/-- Reads one part of a name. -/
def namePart? : List Char → Option (String × List Char)
  | '"' :: cs => lineText? '"' cs
  | '\'' :: cs => lineText? '\'' cs
  | cs =>
    let bare := cs.takeWhile isBare
    if bare.isEmpty then none else some (String.ofList bare, cs.dropWhile isBare)

/-- Reads the parts of a name with points between them, of which there are at most `limit`. -/
def nameParts? : (limit : Nat) → List Char → Option (List String × List Char)
  | 0, _ => none
  | limit + 1, cs => do
    let (part, cs) ← namePart? (skipSpace cs)
    match skipSpace cs with
    | '.' :: cs =>
      let (parts, cs) ← nameParts? limit cs
      return (part :: parts, cs)
    | cs => return ([part], cs)

/-- How many parts a name may have. -/
def maxNameParts : Nat := 79

/-- Reads a name with the blanks around it. -/
def name? (cs : List Char) : Option (List String × List Char) :=
  nameParts? maxNameParts cs

end HttpPipeline.Document.Toml
