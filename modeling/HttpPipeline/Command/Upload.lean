import HttpPipeline.Options.File

/-! # Settings of an upload command

  What an upload works with before anything is sent: the log filter, which its argument or
  the environment asks for, and the pipeline options, which a file or the storage client
  gives.
-/

namespace HttpPipeline.Command

/-! ## §1. The log filter -/

/-- The log filter of a command: the names given as its argument, or else what the
environment asks for. -/
def resolveFilter (argument : Option String) (env : Environment) :
    Except Log.UnknownClassification (Option Log.Filter) :=
  match argument with
  | some names => (Log.Filter.parse names).map some
  | none => Log.Filter.ofEnvironment env

/-! ## §2. The options -/

/-- Options that could not be loaded. -/
structure LoadFailure where
  /-- The name of the file. -/
  name : String
  /-- Why it could not be read. -/
  cause : Error

/-- The wording of the failure, which leaves out the cause. -/
def LoadFailure.message (e : LoadFailure) : String :=
  "loading options from " ++ e.name

/-- The options of an upload: those of the file, if one is given, with the storage client's
API version unless the file sets one, or else the storage client's. -/
def loadOptions (file : Option Options.File) : Except LoadFailure PipelineOptions :=
  match file with
  | none => .ok Blob.defaultOptions
  | some file =>
    match Options.ofFile file with
    | .error cause => .error ⟨file.name, cause⟩
    | .ok options =>
      .ok { options with apiVersion := options.apiVersion <|> Blob.defaultOptions.apiVersion }

end HttpPipeline.Command
