import HttpPipeline.Error
import HttpPipeline.Http.Response

/-! # Failures of the blob client -/

namespace HttpPipeline.Blob

/-- Why a blob was not stored. -/
inductive Error where
  /-- The call ended without a response. -/
  | pipeline (cause : HttpPipeline.Error)
  /-- The service refused. -/
  | refused (status : Http.Status) (code : Option String) (body : String)
  deriving DecidableEq, Repr

namespace Error

/-- The status with which the service refused. -/
def status? : Error → Option Http.Status
  | .pipeline _ => none
  | .refused status _ _ => some status

/-- The wording of a failure, for those that have one. -/
def message? : Error → Option String
  | .pipeline cause => cause.message?
  | .refused status code _ =>
    let suffix := match code with
      | none => ""
      | some code => " (" ++ code ++ ")"
    some ("storage service returned " ++ toString status ++ suffix)

end Error

end HttpPipeline.Blob
