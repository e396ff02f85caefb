import HttpPipeline.Document.Json
import HttpPipeline.Document.Toml.Document
import HttpPipeline.Options.Document

/-! # Option files

  Options are read from the text of a document in one of the two formats, or from a file,
  whose name decides on the format.
-/

namespace HttpPipeline.Options

/-! ## §1. Texts -/

/-- Reads pipeline options from a JSON document. -/
def ofJson (text : String) : Except Error PipelineOptions :=
  match (Document.Json.parse? text).bind (readPipeline .json) with
  | some options => .ok options
  | none => .error .json

/-- Reads pipeline options from a TOML document. -/
def ofToml (text : String) : Except Error PipelineOptions :=
  match (Document.Toml.parse? text).bind (readPipeline .toml) with
  | some options => .ok options
  | none => .error .toml

/-! ## §2. Files -/

/-- A file as it is found under a name. -/
structure File where
  /-- The name, which may have directories before it. -/
  name : String
  /-- The content, or none if there is no such file. -/
  content : Option Bytes

/-- The last part of a name with directories. -/
def baseName (name : String) : List Char :=
  let parts := (Text.fields '/' name.toList).filter fun part => part ≠ [] && part ≠ ['.']
  parts.getLast?.getD []

/-- The part of a file's name after its last point. A name whose only point is at its start
has none. -/
def extension? (name : String) : Option String :=
  let base := baseName name
  let reversed := base.reverse
  let after := (reversed.takeWhile (· ≠ '.')).reverse
  match reversed.dropWhile (· ≠ '.') with
  | _ :: before => if before.isEmpty || base = ['.', '.'] then none else some (String.ofList after)
  | [] => none

/-- Whether a file of this name holds JSON. Every other file holds TOML. -/
def isJsonName (name : String) : Bool :=
  match extension? name with
  | some extension => Text.sameIgnoringCase extension "json"
  | none => false

/-- The text of a file. -/
def File.text (file : File) : Except Error String :=
  match file.content with
  | none => .error (.file .missing)
  | some octets =>
    match Utf8.decode octets with
    | .ok text => .ok text
    | .error _ => .error (.file .notText)

/-- Reads pipeline options from a file. -/
def ofFile (file : File) : Except Error PipelineOptions := do
  let text ← file.text
  if isJsonName file.name then ofJson text else ofToml text

end HttpPipeline.Options
