import HttpPipeline.Environment
import HttpPipeline.Log.Classification
import HttpPipeline.Text.Fields
import HttpPipeline.Text.Quoted

/-! # Log filters

  A filter lists the classifications that are let through. It is written as codes, ended by
  `Classification.endOfList`, or as dotted names between commas. Codes are read strictly,
  where an unknown code is a failure to report, or on trust, where it is a fault of the
  caller.
-/

namespace HttpPipeline.Log

/-- The classifications that are let through, in the order given and with repetitions. -/
structure Filter where
  /-- The classifications listed. -/
  entries : List Classification := []
  deriving DecidableEq, Repr

/-- An unknown code in a list that the caller vouched for. -/
structure UntrustedCode where
  /-- The code. -/
  code : Int
  deriving DecidableEq, Repr

/-- The wording of the fault: the code in hexadecimal, as an unsigned 32-bit number. -/
def UntrustedCode.message (e : UntrustedCode) : String :=
  "unknown log classification code 0x" ++ Text.hexNumeral 1 (Text.unsigned32 e.code)

namespace Filter

/-! ## §1. What a filter lets through -/

/-- Whether a filter lists a classification. -/
def contains (f : Filter) (c : Classification) : Bool :=
  f.entries.any fun listed => listed == c

/-- How many entries a filter has. -/
def size (f : Filter) : Nat :=
  f.entries.length

/-- Whether a filter has no entry, and so lets nothing through. -/
def isEmpty (f : Filter) : Bool :=
  f.entries.isEmpty

theorem contains_iff {f : Filter} {c : Classification} :
    f.contains c = true ↔ c ∈ f.entries := by
  simp [contains]

/-! ## §2. Codes -/

/-- The codes of a filter, followed by the code that ends a list. -/
def toCodes (f : Filter) : List Int :=
  f.entries.map Classification.code ++ [Classification.endOfList]

/-- Reads the codes before the first end of list, and reports the first unknown one. -/
def ofCodes (codes : List Int) : Except UnknownClassification Filter := do
  let entries ← (codes.takeWhile (· != Classification.endOfList)).mapM Classification.ofCode
  return ⟨entries⟩

/-- The classifications of codes that the caller vouches for, up to the end of the list. -/
def trustedEntries : List Int → Except UntrustedCode (List Classification)
  | [] => .ok []
  | n :: codes =>
    if n = Classification.endOfList then .ok []
    else
      match Classification.ofCode? n with
      | none => .error ⟨n⟩
      | some c => (trustedEntries codes).map (c :: ·)

/-- Reads codes that the caller vouches for. -/
def ofTrustedCodes (codes : List Int) : Except UntrustedCode Filter :=
  (trustedEntries codes).map Filter.mk

/-! ## §3. Names -/

/-- The parts of a list of names between its commas, without the blanks around them, and
without the parts that are blank altogether. -/
def parts (s : String) : List String :=
  (((Text.fields ',' s.toList).map Text.trimChars).filter (!·.isEmpty)).map String.ofList

/-- Reads dotted names between commas. -/
def parse (s : String) : Except UnknownClassification Filter := do
  let entries ← (parts s).mapM Classification.parse
  return ⟨entries⟩

/-- The variable that a filter is read from. -/
def variableName : String := "NIMBUS_LOG_CLASSIFICATIONS"

/-- Reads the filter that the environment asks for. A variable that is not set, or is blank,
asks for none. -/
def ofEnvironment (env : Environment) : Except UnknownClassification (Option Filter) :=
  match env.get? variableName with
  | none => .ok none
  | some text => if Text.isBlankText text then .ok none else (parse text).map some

/-! ## §4. Description -/

/-- The description of a filter. -/
def describe (f : Filter) : String :=
  "ClassificationFilter \x7b entries: " ++ Text.bracketed (f.entries.map Classification.label)
    ++ " \x7d"

end Filter

end HttpPipeline.Log
