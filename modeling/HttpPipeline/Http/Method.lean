import HttpPipeline.Http.Error
import HttpPipeline.Text.Ascii

/-! # Request methods -/

namespace HttpPipeline.Http

/-- The method of a request. -/
inductive Method where
  /-- Fetches a resource. -/
  | get
  /-- Fetches the headers of a resource. -/
  | head
  /-- Submits to a resource. -/
  | post
  /-- Replaces a resource. -/
  | put
  /-- Changes a part of a resource. -/
  | patch
  /-- Removes a resource. -/
  | delete
  deriving DecidableEq, Repr

namespace Method

/-- The name of a method on the wire. -/
def name : Method → String
  | .get => "GET"
  | .head => "HEAD"
  | .post => "POST"
  | .put => "PUT"
  | .patch => "PATCH"
  | .delete => "DELETE"

/-- Every method. -/
def all : List Method :=
  [.get, .head, .post, .put, .patch, .delete]

/-- Reads the name of a method in any ASCII case. -/
def parse (s : String) : Except Error Method :=
  let upper := Text.upperAscii s
  match all.find? fun m => m.name == upper with
  | some m => .ok m
  | none => .error (.invalidRequest ("unsupported method: " ++ upper))

/-- Whether a request with this method has no body when its content is empty. -/
def omitsEmptyBody : Method → Bool
  | .get | .head | .delete => true
  | .post | .put | .patch => false

theorem parse_name (m : Method) : parse m.name = .ok m := by
  cases m <;> rfl

end Method

end HttpPipeline.Http
