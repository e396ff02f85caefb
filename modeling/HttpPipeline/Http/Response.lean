import HttpPipeline.Http.HeaderMap
import HttpPipeline.Text.Utf8

/-! # Responses -/

namespace HttpPipeline.Http

/-- A status code. -/
abbrev Status := UInt16

/-- The answer to a request. -/
structure Response where
  /-- The status code. -/
  status : Status := 0
  /-- The headers. -/
  headers : HeaderMap := {}
  /-- The content. -/
  body : Bytes := []
  deriving DecidableEq, Repr

namespace Response

/-- The value of a header, whose name may be in any ASCII case. -/
def header? (r : Response) (name : String) : Option String :=
  r.headers.get? name

/-- Sets a header, whatever value it had before. -/
def withHeader (r : Response) (name value : String) : Response :=
  { r with headers := r.headers.insert name value }

/-- Adds a value to a header. -/
def appendHeader (r : Response) (name value : String) : Response :=
  { r with headers := r.headers.append name value }

/-- Replaces the content. -/
def withBody (r : Response) (body : Bytes) : Response :=
  { r with body }

/-- Whether the status says that the request succeeded. -/
def isSuccess (r : Response) : Bool :=
  200 ≤ r.status && r.status < 300

/-- The content as text. -/
def text (r : Response) : Except Utf8.Fault String :=
  Utf8.decode r.body

/-- The usual words for a status, or none. -/
def reasonPhrase (r : Response) : String :=
  match r.status.toNat with
  | 200 => "OK"
  | 201 => "Created"
  | 202 => "Accepted"
  | 204 => "No Content"
  | 304 => "Not Modified"
  | 400 => "Bad Request"
  | 401 => "Unauthorized"
  | 403 => "Forbidden"
  | 404 => "Not Found"
  | 408 => "Request Timeout"
  | 409 => "Conflict"
  | 412 => "Precondition Failed"
  | 429 => "Too Many Requests"
  | 500 => "Internal Server Error"
  | 502 => "Bad Gateway"
  | 503 => "Service Unavailable"
  | 504 => "Gateway Timeout"
  | _ => ""

@[simp] theorem status_withHeader (r : Response) (name value : String) :
    (r.withHeader name value).status = r.status := rfl
@[simp] theorem status_appendHeader (r : Response) (name value : String) :
    (r.appendHeader name value).status = r.status := rfl

end Response

end HttpPipeline.Http
