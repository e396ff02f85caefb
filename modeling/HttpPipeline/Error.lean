import HttpPipeline.Http.Error

/-! # Failures of a call

  Everything that can end a call without a response. Each failure is a cause; its wording is
  given by `Error.message` alone. Failures of the two document formats have no wording.
-/

namespace HttpPipeline

/-- Why options or arguments cannot be used. -/
inductive ConfigFault where
  /-- A header name has only blanks. -/
  | emptyHeaderName
  /-- A query parameter has no name. -/
  | emptyQueryName
  /-- The name that carries the API version has only blanks. -/
  | emptyApiVersionName
  /-- A token has only blanks. -/
  | emptyToken
  /-- An application id is longer than `limit` characters. -/
  | longApplicationId (limit : Nat)
  /-- An endpoint has no characters. -/
  | emptyEndpoint
  /-- An endpoint of `size` octets is longer than `limit`. -/
  | longEndpoint (size limit : Nat)
  /-- Any other cause. -/
  | other (reason : String)
  deriving DecidableEq, Repr

/-- The wording of a cause. -/
def ConfigFault.message : ConfigFault → String
  | .emptyHeaderName => "header name is empty"
  | .emptyQueryName => "query parameter name is empty"
  | .emptyApiVersionName => "api version name is empty"
  | .emptyToken => "token is empty"
  | .longApplicationId limit => s!"application id is longer than {limit} characters"
  | .emptyEndpoint => "endpoint is empty"
  | .longEndpoint size limit => s!"endpoint is {size} bytes, limit is {limit}"
  | .other reason => reason

/-- Why a file cannot be read. -/
inductive FileFault where
  /-- There is no such file. -/
  | missing
  /-- The content is not UTF-8. -/
  | notText
  /-- Any other cause. -/
  | other (reason : String)
  deriving DecidableEq, Repr

/-- The wording of a cause. -/
def FileFault.message : FileFault → String
  | .missing => "No such file or directory (os error 2)"
  | .notText => "stream did not contain valid UTF-8"
  | .other reason => reason

/-- Why a call ended without a response. -/
inductive Error where
  /-- Something does not fit the space set aside for it. -/
  | insufficientCapacity (what : String) (needed available : Nat)
  /-- Options or arguments cannot be used. -/
  | invalidConfig (fault : ConfigFault)
  /-- The credential could not authorize the request. -/
  | credential (reason : String)
  /-- A policy refused. -/
  | rejected (policy reason : String)
  /-- The deadline of the call has passed. -/
  | timeout
  /-- The call was cancelled. -/
  | cancelled
  /-- The transport could not complete the exchange. -/
  | transport (cause : Http.Error)
  /-- A text is not the JSON document it should be. -/
  | json
  /-- A text is not the TOML document it should be. -/
  | toml
  /-- A file cannot be read. -/
  | file (fault : FileFault)
  deriving DecidableEq, Repr

namespace Error

/-- The wording of a failure, for those that have one. -/
def message? : Error → Option String
  | .insufficientCapacity what needed available =>
    some s!"insufficient capacity for {what}: needed {needed}, available {available}"
  | .invalidConfig fault => some ("invalid configuration: " ++ fault.message)
  | .credential reason => some ("credential error: " ++ reason)
  | .rejected policy reason => some s!"rejected by {policy} policy: {reason}"
  | .timeout => some "deadline exceeded"
  | .cancelled => some "operation cancelled"
  | .transport cause => some ("transport error: " ++ cause.message)
  | .json | .toml => none
  | .file fault => some ("io error: " ++ fault.message)

/-- Whether sending the request again may succeed. -/
def isRetryable : Error → Bool
  | .transport cause => cause.isTransient
  | .timeout => true
  | _ => false

end Error

end HttpPipeline
