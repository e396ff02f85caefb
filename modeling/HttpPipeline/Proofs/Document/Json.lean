import HttpPipeline.Document.Json
import HttpPipeline.Proofs.Text.Count
import Mathlib.Data.List.Basic
import Mathlib.Data.List.TakeWhile

/-! # Written JSON

  A value is written as the text of its tokens with nothing between them, and what is written is
  read back. The reader goes from characters to tokens and from tokens to values, and both passes
  are followed within any document: what was read before is among the tokens found or on the stack,
  and what comes behind is left to read. Main statement: reading gives back any value that is
  written, if it is one that the format has.
-/

namespace HttpPipeline.Document

/-- A value that JSON has, with no number but whole ones. -/
inductive Value.IsPlain : Value → Prop where
  /-- No value. -/
  | null : IsPlain .null
  /-- A truth value. -/
  | bool (b : Bool) : IsPlain (.bool b)
  /-- A whole number. -/
  | integer (n : Int) : IsPlain (.integer n)
  /-- A text. -/
  | string (s : String) : IsPlain (.string s)
  /-- A text with half of a surrogate pair. -/
  | brokenString : IsPlain .brokenString
  /-- A list of such values. -/
  | list {items : List Value} (h : ∀ v ∈ items, IsPlain v) : IsPlain (.list items)
  /-- A table of such values. -/
  | table {members : List (Option String × Value)} (h : ∀ member ∈ members, IsPlain member.2) :
      IsPlain (.table members)

namespace Json

/-! ## §1. Writing -/

/-- A whole number in decimal digits. -/
def numeral : Int → List Char
  | .ofNat n => Nat.toDigits 10 n
  | .negSucc n => '-' :: Nat.toDigits 10 (n + 1)

mutual

/-- The tokens of a value. -/
def tokens : Value → List Token
  | .null => [.word "null".toList]
  | .bool true => [.word "true".toList]
  | .bool false => [.word "false".toList]
  | .integer n => [.word (numeral n)]
  | .fraction numeral => [.word numeral.toList]
  | .string s => [.text (some s)]
  | .brokenString => [.text none]
  | .datetime => []
  | .list items => .openList :: (itemTokens items).tail ++ [.closeList]
  | .table members => .openTable :: (memberTokens members).tail ++ [.closeTable]

/-- The tokens of items with a comma before each. -/
def itemTokens : List Value → List Token
  | [] => []
  | v :: items => .comma :: (tokens v ++ itemTokens items)

/-- The tokens of members with a comma before each. -/
def memberTokens : List (Option String × Value) → List Token
  | [] => []
  | (name, v) :: members =>
    .comma :: .text name :: .colon :: (tokens v ++ memberTokens members)

end

/-- The letter that stands for a character in an escape, if there is one. -/
def escapeLetter? : Char → Option Char
  | '"' => some '"'
  | '\\' => some '\\'
  | '\x08' => some 'b'
  | '\x0c' => some 'f'
  | '\n' => some 'n'
  | '\r' => some 'r'
  | '\t' => some 't'
  | _ => none

/-- A character as it is written in a text. -/
def written (c : Char) : List Char :=
  match escapeLetter? c with
  | some letter => ['\\', letter]
  | none => if c.toNat < 0x20 then '\\' :: 'u' :: (Text.hexNumeral 4 c.toNat).toList else [c]

/-- A token as it is written. -/
def Token.spelling : Token → List Char
  | .openList => ['[']
  | .closeList => [']']
  | .openTable => ['\x7b']
  | .closeTable => ['\x7d']
  | .colon => [':']
  | .comma => [',']
  | .text (some s) => '"' :: s.toList.flatMap written ++ ['"']
  | .text none => "\"\\ud800\"".toList
  | .word cs => cs

/-- A value as it is written. -/
def write (v : Value) : String :=
  String.ofList ((tokens v).flatMap Token.spelling)

/-! ## §2. Numbers -/

/-- No number above zero begins with a zero. -/
theorem head?_toDigits_ne_zero {n : Nat} (h : 0 < n) : (Nat.toDigits 10 n).head? ≠ some '0' := by
  -- By strong induction: the digits of a tenth of the number come first, down to a single digit.
  induction n using Nat.strongRecOn with
  | ind n ih =>
    by_cases hsmall : n < 10
    · rw [Nat.toDigits_of_lt_base hsmall, List.head?_cons]
      intro heq
      have hzero := Nat.digitChar_eq_zero.mp (Option.some.inj heq)
      omega
    · rw [Nat.toDigits_of_base_le (by decide) (by omega), List.head?_append_of_ne_nil _
        Nat.toDigits_ne_nil]
      exact ih (n / 10) (by omega) (by omega)

theorem isDigit_of_mem_toDigits {n : Nat} : ∀ c ∈ Nat.toDigits 10 n, c.isDigit = true :=
  fun _ => Nat.isDigit_of_mem_toDigits (by decide) (by decide)

/-- What is written for a number is the whole part of a number. -/
theorem isWholePart_toDigits (n : Nat) : isWholePart (Nat.toDigits 10 n) = true := by
  have hdigits : isDigits (Nat.toDigits 10 n) = true := by
    rw [isDigits, Bool.and_eq_true]
    exact ⟨by simp [Nat.toDigits_ne_nil], List.all_eq_true.mpr isDigit_of_mem_toDigits⟩
  rw [isWholePart, hdigits, Bool.true_and]
  rcases Nat.eq_zero_or_pos n with rfl | hpos
  · rfl
  · simp [head?_toDigits_ne_zero hpos]

/-- The digits of a number are read as that number, or as its negative behind a minus sign. -/
theorem unsigned?_toDigits (negative : Bool) {n : Nat} (h : negative = true → 0 < n) :
    unsigned? negative (Nat.toDigits 10 n) =
      some (.integer (if negative then -(n : Int) else n)) := by
  have hwhole : (Nat.toDigits 10 n).takeWhile Char.isDigit = Nat.toDigits 10 n :=
    List.takeWhile_eq_self_iff.mpr isDigit_of_mem_toDigits
  have hrest : (Nat.toDigits 10 n).dropWhile Char.isDigit = [] :=
    List.dropWhile_eq_nil_iff.mpr isDigit_of_mem_toDigits
  have hvalue : Text.decimalValue 0 (Nat.toDigits 10 n) = n := by
    rw [Text.decimalValue_eq_ofDigitChars]
    exact Nat.ofDigitChars_toDigits (by decide) (by decide)
  simp only [unsigned?, hwhole, hrest, hvalue, isWholePart_toDigits]
  cases negative with
  | false => rfl
  | true => simp [Nat.ne_of_gt (h rfl)]

theorem ne_of_isDigit {c d : Char} (hc : c.isDigit = true) (hd : d.isDigit = false) : c ≠ d := by
  rintro rfl
  rw [hc] at hd
  cases hd

/-- Digits are no word and have no sign. -/
theorem wordValue?_of_digits {cs : List Char} (hne : cs ≠ []) (h : ∀ c ∈ cs, c.isDigit = true) :
    wordValue? cs = unsigned? false cs := by
  obtain ⟨c, cs, rfl⟩ := List.exists_cons_of_ne_nil hne
  have hc : c.isDigit = true := h c List.mem_cons_self
  have hnull : c ≠ 'n' := ne_of_isDigit hc rfl
  have htrue : c ≠ 't' := ne_of_isDigit hc rfl
  have hfalse : c ≠ 'f' := ne_of_isDigit hc rfl
  have hminus : c ≠ '-' := ne_of_isDigit hc rfl
  simp [wordValue?, number?, hnull, htrue, hfalse, hminus]

/-- A numeral is read as its number. -/
theorem wordValue?_numeral (n : Int) : wordValue? (numeral n) = some (.integer n) := by
  cases n with
  | ofNat n =>
    show wordValue? (Nat.toDigits 10 n) = _
    rw [wordValue?_of_digits Nat.toDigits_ne_nil isDigit_of_mem_toDigits,
      unsigned?_toDigits false nofun]
    rfl
  | negSucc n =>
    have hread : wordValue? (numeral (.negSucc n)) = unsigned? true (Nat.toDigits 10 (n + 1)) := by
      simp [wordValue?, numeral, number?]
    rw [hread, unsigned?_toDigits true fun _ => n.succ_pos]
    rfl

/-! ## §3. From characters to tokens -/

section Scanning

variable {before before' : List Token} {mode : Mode} {c : Char} {cs rest : List Char}
  {ts us : List Token} {t : Token}

theorem scan_cons (mode' : Mode) (h : scanChar before mode c = some (before', mode')) :
    scan before mode (c :: cs) = scan before' mode' cs := by
  cases mode <;> simp only [scan, h]

theorem escaped?_of_escapeLetter? {letter : Char} (h : escapeLetter? c = some letter) :
    letter ≠ 'u' ∧ escaped? letter = some c := by
  unfold escapeLetter? at h
  split at h <;> cases h <;> decide

theorem hexValue?_digitChar : ∀ d < 16, hexValue? d.digitChar = some d := by
  decide

/-- The digits of a control character in an escape. -/
theorem hexNumeral_of_control : ∀ n < 0x20,
    (Text.hexNumeral 4 n).toList = ['0', '0', (n / 16).digitChar, (n % 16).digitChar] := by
  decide

theorem scanChar_digit {left value digit : Nat} {read : List Piece}
    (h : hexValue? c = some digit) :
    scanChar before (.digits read (left + 1) value) c =
      some (before, .digits read left (value * 16 + digit)) := by
  rw [scanChar, h]
  rfl

theorem scanChar_last_digit {value digit : Nat} {read : List Piece}
    (h : hexValue? c = some digit) :
    scanChar before (.digits read 0 value) c =
      some (before, .text (Piece.ofUnit (value * 16 + digit) :: read)) := by
  rw [scanChar, h]
  rfl

/-- A control character is read from the digits of its code. -/
theorem scan_control (hcontrol : c.toNat < 0x20) (before : List Token) (read : List Piece)
    (rest : List Char) :
    scan before (.escape read) ('u' :: (Text.hexNumeral 4 c.toNat).toList ++ rest) =
      scan before (.text (.char c :: read)) rest := by
  have hfirst : hexValue? (c.toNat / 16).digitChar = some (c.toNat / 16) :=
    hexValue?_digitChar _ (by omega)
  have hlast : hexValue? (c.toNat % 16).digitChar = some (c.toNat % 16) :=
    hexValue?_digitChar _ (by omega)
  have hcode : (0 * 16 + c.toNat / 16) * 16 + c.toNat % 16 = c.toNat := by omega
  have hpiece : Piece.ofUnit c.toNat = .char c := by
    have hhalf : (isFirstHalf c.toNat || isSecondHalf c.toNat) = false := by
      simp [isFirstHalf, isSecondHalf]
      omega
    rw [Piece.ofUnit, hhalf, if_neg Bool.false_ne_true, Char.ofNat_toNat]
  rw [hexNumeral_of_control _ hcontrol]
  simp only [List.cons_append, List.nil_append]
  -- The two zeros leave the value at zero.
  rw [scan_cons (.digits read 3 0) rfl, scan_cons (.digits read 2 0) rfl,
    scan_cons (.digits read 1 0) rfl, scan_cons _ (scanChar_digit hfirst),
    scan_cons _ (scanChar_last_digit hlast), hcode, hpiece]

/-- A character that is written is read as itself. -/
theorem scan_written (before : List Token) (read : List Piece) (c : Char) (rest : List Char) :
    scan before (.text read) (written c ++ rest) = scan before (.text (.char c :: read)) rest := by
  unfold written
  split
  case h_1 letter hletter =>
    obtain ⟨hu, hback⟩ := escaped?_of_escapeLetter? hletter
    rw [List.cons_append, scan_cons (.escape read) rfl, List.cons_append]
    exact scan_cons _ (by simp [scanChar, hu, hback])
  case h_2 hletter =>
    split
    case isTrue hcontrol =>
      rw [List.cons_append, scan_cons (.escape read) rfl]
      exact scan_control hcontrol before read rest
    case isFalse hcontrol =>
      have hquote : c ≠ '"' := by
        rintro rfl
        cases hletter
      have hbackslash : c ≠ '\\' := by
        rintro rfl
        cases hletter
      exact scan_cons _ (by simp only [scanChar, hquote, hbackslash, hcontrol, if_false])

theorem joinPieces_map_char (cs : List Char) : joinPieces (cs.map .char) = some cs := by
  induction cs with
  | nil => rfl
  | cons c cs ih => rw [List.map_cons, joinPieces, ih, Option.map_some]

theorem scan_flatMap_written (before : List Token) (read : List Piece) (cs rest : List Char) :
    scan before (.text read) (cs.flatMap written ++ rest) =
      scan before (.text ((cs.map Piece.char).reverse ++ read)) rest := by
  -- By induction on the characters, whatever was read of the text before.
  induction cs generalizing read with
  | nil => rfl
  | cons c cs ih =>
    rw [List.flatMap_cons, List.append_assoc, scan_written, ih, List.map_cons, List.reverse_cons,
      List.append_assoc, List.singleton_append]

/-- Whether a character ends the number or the word before it. -/
def delimits (c : Char) : Bool :=
  isSpace c || c = '"' || (punctuation? c).isSome

/-- Whether a number or a word ends before these characters. -/
def EndsWord (rest : List Char) : Prop :=
  ∀ c ∈ rest.head?, delimits c = true

theorem scan_word (hcs : ∀ c ∈ cs, delimits c = false) (hrest : EndsWord rest)
    (before : List Token) (read : List Char) :
    scan before (.word read) (cs ++ rest) =
      scan (.word (read.reverse ++ cs) :: before) .between rest := by
  induction cs generalizing read with
  | nil =>
    rw [List.nil_append, List.append_nil]
    cases rest with
    | nil => rfl
    | cons c rest =>
      -- The character ends the word and is read as it is between tokens.
      have hc : delimits c = true := hrest c rfl
      have hstep : scanChar before (.word read) c =
          some (scanBetween (.word read.reverse :: before) c) := if_pos hc
      rw [scan_cons _ hstep]
      exact (scan_cons _ rfl).symm
  | cons c cs ih =>
    have hc : delimits c = false := hcs c List.mem_cons_self
    have hstep : scanChar before (.word read) c = some (before, .word (c :: read)) :=
      if_neg (ne_true_of_eq_false hc)
    rw [List.cons_append, scan_cons _ hstep, ih fun d hd => hcs d (List.mem_cons_of_mem c hd),
      List.reverse_cons, List.append_assoc, List.singleton_append]

/-- Whether a token is a number or a word. -/
def Token.isWord : Token → Bool
  | .word _ => true
  | _ => false

/-- A token that is no word is found wherever it is written. -/
theorem scan_spelling (ht : t.isWord = false) (before : List Token) (rest : List Char) :
    scan before .between (t.spelling ++ rest) = scan (t :: before) .between rest := by
  cases t with
  | word cs => cases ht
  | text s =>
    cases s with
    | none => rfl
    | some s =>
      have hjoin : (joinPieces ((s.toList.map Piece.char).reverse ++ []).reverse).map
          String.ofList = some s := by
        rw [List.append_nil, List.reverse_reverse, joinPieces_map_char, Option.map_some,
          String.ofList_toList]
      show scan before .between ('"' :: (s.toList.flatMap written ++ ['"'] ++ rest)) = _
      rw [scan_cons (.text []) rfl, List.append_assoc, scan_flatMap_written,
        List.singleton_append]
      exact scan_cons _ (by rw [scanChar, if_pos rfl, hjoin])
  | _ => exact scan_cons _ rfl

/-- Whether tokens are found in what is written for them, with whatever around it. -/
def Scans (ts : List Token) : Prop :=
  ∀ before rest, EndsWord rest →
    scan before .between (ts.flatMap Token.spelling ++ rest) =
      scan (ts.reverse ++ before) .between rest

/-- A word before these tokens ends where they begin. -/
theorem endsWord_append (hfirst : ∀ t ∈ us.head?, t.isWord = false) (hrest : EndsWord rest) :
    EndsWord (us.flatMap Token.spelling ++ rest) := by
  cases us with
  | nil => exact hrest
  | cons t us =>
    have ht : t.isWord = false := hfirst t rfl
    intro c hc
    rw [List.flatMap_cons, List.append_assoc] at hc
    cases t with
    | word cs => cases ht
    | text s => cases s <;> cases hc <;> rfl
    | _ => cases hc; rfl

theorem Scans.append (hts : Scans ts) (hus : Scans us)
    (hfirst : ∀ t ∈ us.head?, t.isWord = false) : Scans (ts ++ us) := by
  intro before rest hrest
  rw [List.flatMap_append, List.append_assoc, hts _ _ (endsWord_append hfirst hrest),
    hus _ _ hrest, List.reverse_append, List.append_assoc]

theorem Scans.cons (ht : t.isWord = false) (hts : Scans ts) : Scans (t :: ts) := by
  intro before rest hrest
  rw [List.flatMap_cons, List.append_assoc, scan_spelling ht, hts _ _ hrest, List.reverse_cons,
    List.append_assoc, List.singleton_append]

theorem scans_nil : Scans [] :=
  fun _ _ _ => rfl

theorem Scans.concat (hts : Scans ts) (ht : t.isWord = false) : Scans (ts ++ [t]) := by
  refine hts.append (scans_nil.cons ht) ?_
  rintro _ ⟨⟩
  exact ht

/-- A word is found up to its end. -/
theorem scans_word (hne : cs ≠ []) (hcs : ∀ c ∈ cs, delimits c = false) : Scans [.word cs] := by
  intro before rest hrest
  obtain ⟨c, cs, rfl⟩ := List.exists_cons_of_ne_nil hne
  have hc : delimits c = false := hcs c List.mem_cons_self
  obtain ⟨hspace, hquote, hpunctuation⟩ :
      isSpace c = false ∧ c ≠ '"' ∧ punctuation? c = none := by
    simpa [delimits, and_assoc] using hc
  have hstep : scanChar before .between c = some (before, .word [c]) := by
    simp [scanChar, scanBetween, hspace, hquote, hpunctuation]
  show scan before .between (c :: (cs ++ [] ++ rest)) = _
  rw [scan_cons _ hstep, List.append_nil,
    scan_word (fun d hd => hcs d (List.mem_cons_of_mem c hd)) hrest]
  rfl

end Scanning

/-- No digit ends a number. -/
theorem delimits_of_isDigit {c : Char} (h : c.isDigit = true) : delimits c = false := by
  have hspace : isSpace c = false := by
    simp [isSpace, ne_of_isDigit h (d := ' ') rfl, ne_of_isDigit h (d := '\t') rfl,
      ne_of_isDigit h (d := '\n') rfl, ne_of_isDigit h (d := '\r') rfl]
  have hpunctuation : punctuation? c = none := by
    unfold punctuation?
    split
    case h_7 => rfl
    all_goals cases h
  simp [delimits, hspace, hpunctuation, ne_of_isDigit h (d := '"') rfl]

theorem delimits_of_mem_numeral {n : Int} : ∀ c ∈ numeral n, delimits c = false := by
  have hdigit (n : Nat) : ∀ c ∈ Nat.toDigits 10 n, delimits c = false :=
    fun c hc => delimits_of_isDigit (isDigit_of_mem_toDigits c hc)
  cases n with
  | ofNat n => exact hdigit n
  | negSucc n =>
    intro c hc
    rcases List.mem_cons.mp hc with rfl | hc
    · rfl
    · exact hdigit (n + 1) c hc

theorem numeral_ne_nil {n : Int} : numeral n ≠ [] := by
  cases n with
  | ofNat n => exact Nat.toDigits_ne_nil
  | negSucc n => exact List.cons_ne_nil '-' _

/-- The first token of items or members with commas before them is no word. -/
theorem head?_itemTokens (items : List Value) :
    ∀ t ∈ (itemTokens items).head?, t.isWord = false := by
  cases items with
  | nil => nofun
  | cons v items => rintro _ ⟨⟩; rfl

theorem head?_memberTokens (members : List (Option String × Value)) :
    ∀ t ∈ (memberTokens members).head?, t.isWord = false := by
  cases members with
  | nil => nofun
  | cons member members => rintro _ ⟨⟩; rfl

theorem scans_itemTokens {items : List Value} (h : ∀ v ∈ items, Scans (tokens v)) :
    Scans (itemTokens items) := by
  induction items with
  | nil => exact scans_nil
  | cons v items ih =>
    obtain ⟨hv, hitems⟩ := List.forall_mem_cons.mp h
    exact (hv.append (ih hitems) (head?_itemTokens items)).cons rfl

theorem scans_memberTokens {members : List (Option String × Value)}
    (h : ∀ member ∈ members, Scans (tokens member.2)) : Scans (memberTokens members) := by
  induction members with
  | nil => exact scans_nil
  | cons member members ih =>
    obtain ⟨hv, hmembers⟩ := List.forall_mem_cons.mp h
    exact (((hv.append (ih hmembers) (head?_memberTokens members)).cons rfl).cons rfl).cons rfl

/-- **The tokens of a value** are found in what is written for it. -/
theorem scans_tokens {v : Value} (h : v.IsPlain) : Scans (tokens v) := by
  -- By induction on the value, with the items and members of lists and tables.
  induction h with
  | null => exact scans_word (by decide) (by simp [delimits, isSpace, punctuation?])
  | bool b =>
    cases b <;> exact scans_word (by decide) (by simp [delimits, isSpace, punctuation?])
  | integer n => exact scans_word numeral_ne_nil delimits_of_mem_numeral
  | string s => exact scans_nil.cons rfl
  | brokenString => exact scans_nil.cons rfl
  | @list items h ih =>
    cases items with
    | nil => exact (scans_nil.cons rfl).cons rfl
    | cons v items =>
      obtain ⟨hv, hitems⟩ := List.forall_mem_cons.mp ih
      have hall := hv.append (scans_itemTokens hitems) (head?_itemTokens items)
      exact (hall.concat rfl).cons rfl
  | @table members h ih =>
    cases members with
    | nil => exact (scans_nil.cons rfl).cons rfl
    | cons member members =>
      obtain ⟨hv, hmembers⟩ := List.forall_mem_cons.mp ih
      have hall := hv.append (scans_memberTokens hmembers) (head?_memberTokens members)
      exact (((hall.concat rfl).cons rfl).cons rfl).cons rfl

/-! ## §4. From tokens to values -/

theorem State.run?_cons {state next : State} {t : Token} {ts : List Token}
    (h : state.step? t = some next) : state.run? (t :: ts) = next.run? ts := by
  rw [State.run?, h, Option.bind_some]

/-- What comes behind tokens is read in the state that they lead to. -/
theorem State.run?_append {state next : State} {ts us : List Token}
    (h : state.run? ts = some next) : state.run? (ts ++ us) = next.run? us := by
  induction ts generalizing state with
  | nil =>
    obtain rfl := Option.some.inj h
    rfl
  | cons t ts ih =>
    rw [State.run?, Option.bind_eq_some_iff] at h
    obtain ⟨state', hstep, hrest⟩ := h
    rw [List.cons_append, State.run?_cons hstep, ih hrest]

/-- Whether a value is read from its tokens wherever it stands. -/
def Reads (v : Value) : Prop :=
  ∀ stack, (State.value stack).run? (tokens v) = some (.place v stack)

theorem run?_itemTokens {items : List Value} (h : ∀ v ∈ items, Reads v) (before : List Value)
    (stack : List Frame) :
    (State.listNext before stack).run? (itemTokens items) =
      some (.listNext (items.reverse ++ before) stack) := by
  induction items generalizing before with
  | nil => rfl
  | cons v items ih =>
    obtain ⟨hv, hitems⟩ := List.forall_mem_cons.mp h
    rw [itemTokens, State.run?_cons rfl, State.run?_append (hv (.item before :: stack)),
      State.place, ih hitems, List.reverse_cons, List.append_assoc, List.singleton_append]

theorem run?_memberTokens {members : List (Option String × Value)}
    (h : ∀ member ∈ members, Reads member.2) (before : List (Option String × Value))
    (stack : List Frame) :
    (State.tableNext before stack).run? (memberTokens members) =
      some (.tableNext (members.reverse ++ before) stack) := by
  induction members generalizing before with
  | nil => rfl
  | cons member members ih =>
    obtain ⟨name, v⟩ := member
    obtain ⟨hv, hmembers⟩ := List.forall_mem_cons.mp h
    rw [memberTokens, State.run?_cons rfl, State.run?_cons rfl, State.run?_cons rfl,
      State.run?_append (hv (.member before name :: stack)), State.place, ih hmembers,
      List.reverse_cons, List.append_assoc, List.singleton_append]

/-- Behind the bracket that opens a list, the first item is read as any other one. -/
theorem run?_listStart {v : Value} (h : v.IsPlain) (stack : List Frame) :
    (State.listStart stack).run? (tokens v) =
      (State.value (.item [] :: stack)).run? (tokens v) := by
  cases h with
  | bool b => cases b <;> rfl
  | _ => rfl

/-- **A value is read from its tokens.** -/
theorem reads_of_isPlain {v : Value} (h : v.IsPlain) : Reads v := by
  induction h with
  | null => exact fun _ => rfl
  | bool b => cases b <;> exact fun _ => rfl
  | integer n =>
    intro stack
    have hstep : (State.value stack).step? (.word (numeral n)) =
        some (.place (.integer n) stack) := by
      rw [State.step?, State.start?, wordValue?_numeral, Option.map_some]
    exact State.run?_cons hstep
  | string s => exact fun _ => rfl
  | brokenString => exact fun _ => rfl
  | @list items h ih =>
    intro stack
    rw [tokens, List.cons_append, State.run?_cons rfl]
    cases items with
    | nil => rfl
    | cons v items =>
      obtain ⟨hplain, _⟩ := List.forall_mem_cons.mp h
      obtain ⟨hv, hitems⟩ := List.forall_mem_cons.mp ih
      -- The first item stands behind the bracket and each other one behind a comma.
      have hfirst := (run?_listStart hplain stack).trans (hv _)
      rw [itemTokens, List.tail_cons, List.append_assoc, State.run?_append hfirst, State.place,
        State.run?_append (run?_itemTokens hitems [v] stack)]
      have hall : (items.reverse ++ [v]).reverse = v :: items := by simp
      rw [State.run?_cons rfl, hall]
      rfl
  | @table members h ih =>
    intro stack
    rw [tokens, List.cons_append, State.run?_cons rfl]
    cases members with
    | nil => rfl
    | cons member members =>
      obtain ⟨name, v⟩ := member
      obtain ⟨hv, hmembers⟩ := List.forall_mem_cons.mp ih
      rw [memberTokens, List.tail_cons, List.cons_append, List.cons_append, State.run?_cons rfl,
        State.run?_cons rfl, List.append_assoc, State.run?_append (hv _), State.place,
        State.run?_append (run?_memberTokens hmembers [(name, v)] stack)]
      -- Members are kept in reverse until the table is closed.
      have hall : (members.reverse ++ [(name, v)]).reverse = (name, v) :: members := by simp
      rw [State.run?_cons rfl, hall]
      rfl

/-! ## §5. Reading what is written -/

/-- **What is written is read back.** -/
theorem parse?_write {v : Value} (h : v.IsPlain) : parse? (write v) = some v := by
  have hscan : scan [] .between ((tokens v).flatMap Token.spelling) = some (tokens v) := by
    have hall := scans_tokens h [] [] nofun
    rw [List.append_nil, List.append_nil] at hall
    rw [hall, scan, List.reverse_reverse]
  have hread : (State.value []).run? (tokens v) = some (.finished v) := reads_of_isPlain h []
  rw [parse?, write, String.toList_ofList, hscan, Option.bind_some, ofTokens?, hread]

example : write (.record [("a", .list [.integer (-7), .null]), ("b\n", .string "é\x01")]) =
    "\x7b\"a\":[-7,null],\"b\\n\":\"é\\u0001\"\x7d" := by
  decide

end Json

end HttpPipeline.Document
