/-! # Failures of an HTTP client -/

namespace HttpPipeline.Http

/-- Why an HTTP client got no response. -/
inductive Error where
  /-- The connection could not be made or was lost. -/
  | connection (reason : String)
  /-- The peer took too long. -/
  | timeout
  /-- The request cannot be sent at all. -/
  | invalidRequest (reason : String)
  deriving DecidableEq, Repr

namespace Error

/-- The wording of a failure. -/
def message : Error → String
  | .connection reason => "connection failed: " ++ reason
  | .timeout => "request timed out"
  | .invalidRequest reason => "invalid request: " ++ reason

/-- Whether sending the same request again may succeed. -/
def isTransient : Error → Bool
  | .connection _ | .timeout => true
  | .invalidRequest _ => false

end Error

end HttpPipeline.Http
