import HttpPipeline.Http.Response
import HttpPipeline.Log.Classification
import HttpPipeline.Request

/-! # Log messages

  The texts that are logged about a call. A header is one line, with its value shortened to
  fifty characters; the values of headers that carry secrets are left out altogether.
-/

namespace HttpPipeline.Log

/-! ## §1. Header values -/

/-- What stands for the value of a header that carries a secret. -/
def redacted : String := "REDACTED"

/-- The names of the headers that carry secrets. -/
def sensitiveNames : List String :=
  ["authorization", "x-ms-authorization-auxiliary", "cookie", "set-cookie"]

/-- Whether a header of this name carries a secret. -/
def isSensitive (name : String) : Bool :=
  sensitiveNames.any fun sensitive => Text.sameIgnoringCase sensitive name

/-- How many characters of a value are logged at most. -/
def maxValueLength : Nat := 50

/-- How many characters of a longer value are kept at its start. -/
def headLength : Nat := 23

/-- How many characters of a longer value are kept at its end. -/
def tailLength : Nat := 22

/-- What stands for the characters that are left out. -/
def ellipsis : String := " ... "

/-- The characters of a value that are logged. -/
def shortenChars (cs : List Char) : List Char :=
  if cs.length ≤ maxValueLength then cs
  else cs.take headLength ++ ellipsis.toList ++ cs.drop (cs.length - tailLength)

/-- A logged value is never longer than the limit. -/
theorem length_shortenChars_le (cs : List Char) :
    (shortenChars cs).length ≤ maxValueLength := by
  unfold shortenChars
  split
  · assumption
  · next h =>
    have he : ellipsis.toList.length = 5 := rfl
    simp only [List.length_append, List.length_take, List.length_drop, he]
    simp only [maxValueLength, headLength, tailLength] at h ⊢
    omega

/-- A value as it is logged. -/
def shorten (value : String) : String :=
  String.ofList (shortenChars value.toList)

/-- The value of a header as it is logged. -/
def loggedValue (name value : String) : String :=
  if isSensitive name then redacted else shorten value

/-- A header as it is logged, with the line break before it. -/
def headerLine (name value : String) : String :=
  "\n\t" ++ name ++ " : " ++ loggedValue name value

/-- Headers as they are logged, in the order given. -/
def headerLines (headers : List (String × String)) : String :=
  String.join (headers.map fun entry => headerLine entry.1 entry.2)

/-! ## §2. Requests, responses and retries -/

/-- The message about a request. -/
def requestMessage (r : Request) : String :=
  "HTTP Request : " ++ r.method.name ++ " " ++ r.url ++ headerLines r.headers

/-- The headers of a response in the order of their names. -/
def sortedHeaders (h : Http.HeaderMap) : List (String × String) :=
  h.entries.mergeSort fun a b => a.1 ≤ b.1

/-- The message about a response that arrived after some milliseconds, with the request it
answers. -/
def responseMessage (response : Http.Response) (elapsed : Nat) (request : Request) : String :=
  "HTTP Response (" ++ toString elapsed ++ "ms) : " ++ toString response.status ++ " "
    ++ response.reasonPhrase ++ headerLines (sortedHeaders response.headers)
    ++ "\n\n -> " ++ requestMessage request

/-- The message about a retry, which is made after a wait of some milliseconds. -/
def retryMessage (retry wait : Nat) : String :=
  "HTTP Retry attempt #" ++ toString retry ++ " will be made in " ++ toString wait ++ "ms."

end HttpPipeline.Log
