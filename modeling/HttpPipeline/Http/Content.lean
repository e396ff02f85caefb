import HttpPipeline.Document.Json
import HttpPipeline.Http.Response

/-! # Content of responses

  The content of a response as a JSON document, where a table of texts is what a caller
  usually asks for.
-/

namespace HttpPipeline.Http

open Document (Value)

/-- A table of texts: each name once, with its value. -/
abbrev TextTable := List (String × String)

/-- The members of a table as texts, if all names and values are texts. Of the values under one
name the last one counts. -/
def textMembers? (table : TextTable) : List (Option String × Value) → Option TextTable
  | [] => some table
  | (some name, .string value) :: rest =>
    textMembers? (HeaderMap.update name value table) rest
  | _ :: _ => none

/-- The table of texts that a value is. -/
def textTable? : Value → Option TextTable
  | .table members => textMembers? [] members
  | _ => none

/-- The content of a response as a JSON document that is a table of texts. -/
def Response.textTable? (r : Response) : Option TextTable :=
  match r.text with
  | .ok text => (Document.Json.parse? text).bind Http.textTable?
  | .error _ => none

end HttpPipeline.Http
