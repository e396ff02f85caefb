/-! # UTF-8

  Octet sequences and the text they encode. A sequence is read by a machine that holds the
  character begun so far and the range its next octet has to be in. Where the machine refuses
  an octet, strict reading reports the place and lenient reading puts `U+FFFD` for the octets
  of the character that was begun.
-/

namespace HttpPipeline

/-- A sequence of octets: a message, a request body, a response body. -/
abbrev Bytes := List UInt8

namespace Utf8

/-! ## §1. The machine -/

/-- A character of which some octets are still to come. -/
structure Begun where
  /-- How many octets are still to come, less one. -/
  more : Nat
  /-- The least value that the next octet may have. -/
  low : Nat
  /-- The greatest value that the next octet may have. -/
  high : Nat
  /-- The bits read so far. -/
  bits : Nat
  /-- How many octets have been read. -/
  width : Nat
  deriving DecidableEq, Repr

/-- What the first octet of a character says. -/
inductive Lead where
  /-- It is the whole character. -/
  | whole (c : Char)
  /-- More octets have to follow. -/
  | begun (b : Begun)
  /-- No character begins with it. -/
  | stray
  deriving DecidableEq, Repr

/-- Reads the first octet of a character. The ranges of the second octet leave out overlong
forms, surrogates and code points above `U+10FFFF`. -/
def lead (octet : UInt8) : Lead :=
  let n := octet.toNat
  if n < 0x80 then .whole (Char.ofNat n)
  else if n < 0xC2 then .stray
  else if n < 0xE0 then .begun ⟨0, 0x80, 0xBF, n - 0xC0, 1⟩
  else if n = 0xE0 then .begun ⟨1, 0xA0, 0xBF, 0, 1⟩
  else if n = 0xED then .begun ⟨1, 0x80, 0x9F, 0xD, 1⟩
  else if n < 0xF0 then .begun ⟨1, 0x80, 0xBF, n - 0xE0, 1⟩
  else if n = 0xF0 then .begun ⟨2, 0x90, 0xBF, 0, 1⟩
  else if n < 0xF4 then .begun ⟨2, 0x80, 0xBF, n - 0xF0, 1⟩
  else if n = 0xF4 then .begun ⟨2, 0x80, 0x8F, 4, 1⟩
  else .stray

/-- The bits of a begun character with those of one more octet. -/
def Begun.extend (b : Begun) (octet : UInt8) : Nat :=
  b.bits * 64 + (octet.toNat - 0x80)

/-- Whether an octet may come next. -/
def Begun.admits (b : Begun) (octet : UInt8) : Bool :=
  b.low ≤ octet.toNat && octet.toNat ≤ b.high

/-- The begun character after one more octet, of which some are still to come. -/
def Begun.next (b : Begun) (more : Nat) (octet : UInt8) : Begun :=
  ⟨more, 0x80, 0xBF, b.extend octet, b.width + 1⟩

/-! ## §2. Strict reading -/

/-- Why octets are not UTF-8. -/
inductive Fault where
  /-- The `width` octets from index `start` on cannot begin or continue a character. -/
  | invalid (width start : Nat)
  /-- The octets end within the character that begins at index `start`. -/
  | incomplete (start : Nat)
  deriving DecidableEq, Repr

/-- The wording of a fault. -/
def Fault.message : Fault → String
  | .invalid width start => s!"invalid utf-8 sequence of {width} bytes from index {start}"
  | .incomplete start => s!"incomplete utf-8 byte sequence from index {start}"

/-- Reads octets from index `start` on, where the character that begins there may be begun. -/
def read (start : Nat) : Option Begun → Bytes → Except Fault (List Char)
  | none, [] => .ok []
  | some _, [] => .error (.incomplete start)
  | none, octet :: rest =>
    match lead octet with
    | .whole c => (read (start + 1) none rest).map (c :: ·)
    | .begun b => read start (some b) rest
    | .stray => .error (.invalid 1 start)
  | some b, octet :: rest =>
    if b.admits octet then
      match b.more with
      | 0 => (read (start + b.width + 1) none rest).map (Char.ofNat (b.extend octet) :: ·)
      | more + 1 => read start (some (b.next more octet)) rest
    else .error (.invalid b.width start)

/-- The text that octets encode, or the first place where they encode none. -/
def decode (octets : Bytes) : Except Fault String :=
  (read 0 none octets).map String.ofList

/-! ## §3. Lenient reading -/

/-- The character that stands for octets that encode none. -/
def replacement : Char := '\uFFFD'

/-- Reads octets, with one replacement for each longest run that begins a character and is
not continued to a whole one. -/
def readLossy : Option Begun → Bytes → List Char
  | none, [] => []
  | some _, [] => [replacement]
  | begun, octet :: rest =>
    match begun with
    | some b =>
      if b.admits octet then
        match b.more with
        | 0 => Char.ofNat (b.extend octet) :: readLossy none rest
        | more + 1 => readLossy (some (b.next more octet)) rest
      else
        match lead octet with
        | .whole c => replacement :: c :: readLossy none rest
        | .begun b => replacement :: readLossy (some b) rest
        | .stray => replacement :: replacement :: readLossy none rest
    | none =>
      match lead octet with
      | .whole c => c :: readLossy none rest
      | .begun b => readLossy (some b) rest
      | .stray => replacement :: readLossy none rest

/-- The text that octets encode, with replacements where they encode none. -/
def decodeLossy (octets : Bytes) : String :=
  String.ofList (readLossy none octets)

/-! ## §4. Writing -/

/-- The octets that encode a text. -/
def encode (s : String) : Bytes :=
  s.toUTF8.toList

end Utf8

end HttpPipeline
