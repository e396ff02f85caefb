import HttpPipeline.Pipeline

/-! # API version policy

  Puts the version of the service's interface on every request, in a header or in the query.
-/

namespace HttpPipeline

/-- Where the version goes. -/
inductive ApiVersionLocation where
  /-- Into a header. -/
  | header
  /-- Into a query parameter. -/
  | queryParameter
  deriving DecidableEq, Repr

/-- Which version is asked for, and how. -/
structure ApiVersionOptions where
  /-- Where the version goes. -/
  location : ApiVersionLocation := .header
  /-- The name of the header or of the query parameter. -/
  name : String
  /-- The version. -/
  version : String
  deriving DecidableEq, Repr

namespace ApiVersionOptions

/-- The options, if the name has a character that is not blank. -/
def validate (o : ApiVersionOptions) : Except Error ApiVersionOptions :=
  if Text.isBlankText o.name then .error (.invalidConfig .emptyApiVersionName) else .ok o

/-- Puts the version on a request. -/
def stamp (o : ApiVersionOptions) (r : Request) : Except Error Request :=
  match o.location with
  | .header => r.appendHeader o.name o.version
  | .queryParameter => r.setQueryParameter o.name o.version

end ApiVersionOptions

/-- The policy that puts the version on every request. -/
def Policy.apiVersion {σ : Type} (o : ApiVersionOptions) : Policy σ where
  name := "api-version"
  process next call := call.withRequest (o.stamp call.request) next.run

end HttpPipeline
