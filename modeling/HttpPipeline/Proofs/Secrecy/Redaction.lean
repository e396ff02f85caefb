import HttpPipeline.Log.Message
import HttpPipeline.Policy.Retry

/-! # Redaction

  A request or a response with the values of its sensitive headers left out. What the log says of
  it, and what the retry policy reads in it, can be told from what is left; and what a policy does
  to it can be done after the redaction as well as before.
-/

namespace HttpPipeline

namespace Log

/-! ## §1. Headers -/

/-- The value of a header, left out if it is a secret. -/
def redactedValue (name value : String) : String :=
  if isSensitive name then redacted else value

/-- The headers without their secrets. -/
def redactHeaders (headers : List (String × String)) : List (String × String) :=
  headers.map fun entry => (entry.1, redactedValue entry.1 entry.2)

theorem redactedValue_of_not_sensitive {name : String} (h : isSensitive name = false)
    (value : String) : redactedValue name value = value := by
  simp [redactedValue, h]

@[simp] theorem length_redactHeaders (headers : List (String × String)) :
    (redactHeaders headers).length = headers.length := List.length_map _

@[simp] theorem redactHeaders_take (n : Nat) (headers : List (String × String)) :
    redactHeaders (headers.take n) = (redactHeaders headers).take n :=
  List.map_take

/-- A value is logged as if it had been redacted before. -/
theorem loggedValue_redactedValue (name value : String) :
    loggedValue name (redactedValue name value) = loggedValue name value := by
  cases h : isSensitive name with
  | true => simp only [loggedValue, h, if_true]
  | false => rw [redactedValue_of_not_sensitive h]

theorem headerLines_redactHeaders (headers : List (String × String)) :
    headerLines (redactHeaders headers) = headerLines headers := by
  have hlines : (redactHeaders headers).map (fun entry => headerLine entry.1 entry.2) =
      headers.map fun entry => headerLine entry.1 entry.2 := by
    rw [redactHeaders, List.map_map]
    refine List.map_congr_left fun entry _ => ?_
    simp only [Function.comp, headerLine, loggedValue_redactedValue]
  exact congrArg String.join hlines

end Log

/-! ## §2. Requests -/

/-- The request without its secrets. -/
def Request.redacted (r : Request) : Request :=
  { r with headers := Log.redactHeaders r.headers }

namespace Request

theorem redacted_markHeaders (r : Request) :
    r.markHeaders.redacted = r.redacted.markHeaders := by
  simp [redacted, markHeaders]

theorem redacted_dropMarkedHeaders (r : Request) :
    r.dropMarkedHeaders.redacted = r.redacted.dropMarkedHeaders := by
  simp [redacted, dropMarkedHeaders]

/-- There is room for a header in a request exactly if there is in the redacted one. -/
theorem map_redacted_appendHeader (r : Request) (name value : String) :
    (r.appendHeader name value).map redacted =
      r.redacted.appendHeader name (Log.redactedValue (Text.trim name) value) := by
  have hlength : r.redacted.headers.length = r.headers.length := Log.length_redactHeaders _
  have hcapacity : r.redacted.headerCapacity = r.headerCapacity := rfl
  simp only [appendHeader, hlength, hcapacity]
  by_cases hname : Text.trim name = ""
  · simp only [hname, if_true]
    rfl
  · by_cases hroom : r.headerCapacity ≤ r.headers.length
    · simp only [hname, hroom, if_true, if_false]
      rfl
    · simp only [hname, hroom, if_false]
      simp [Except.map, redacted, Log.redactHeaders]

theorem map_redacted_setQueryParameter (r : Request) (name value : String) :
    (r.setQueryParameter name value).map redacted =
      r.redacted.setQueryParameter name value := by
  have hurl : r.redacted.url = r.url := rfl
  have hcapacity : r.redacted.urlCapacity = r.urlCapacity := rfl
  simp only [setQueryParameter, hurl, hcapacity]
  by_cases hname : name = ""
  · simp only [hname, if_true]
    rfl
  · by_cases hroom : r.urlCapacity < sizeWithParameter r.url name value
    · simp only [hname, hroom, if_true, if_false]
      rfl
    · simp only [hname, hroom, if_false]
      rfl

end Request

theorem Log.requestMessage_redacted (r : Request) :
    requestMessage r.redacted = requestMessage r := by
  unfold requestMessage
  rw [← headerLines_redactHeaders r.headers]
  rfl

/-! ## §3. Responses -/

/-- The response without its secrets. -/
def Http.Response.redacted (x : Http.Response) : Http.Response :=
  { x with headers := ⟨Log.redactHeaders x.headers.entries⟩ }

/-- The order of the names does not depend on the values. -/
theorem Log.sortedHeaders_redacted (x : Http.Response) :
    sortedHeaders x.redacted.headers = redactHeaders (sortedHeaders x.headers) := by
  show (redactHeaders x.headers.entries).mergeSort _ = redactHeaders (List.mergeSort _ _)
  refine (List.map_mergeSort ?_).symm
  exact fun _ _ _ _ => rfl

theorem Log.responseMessage_redacted (x : Http.Response) (elapsed : Nat) (r : Request) :
    responseMessage x.redacted elapsed r.redacted = responseMessage x elapsed r := by
  unfold responseMessage
  rw [sortedHeaders_redacted, headerLines_redactHeaders, requestMessage_redacted]
  rfl

/-- A header that is not sensitive keeps its value. -/
theorem Http.Response.header?_redacted (x : Http.Response) {name : String}
    (h : Log.isSensitive (Text.lowerAscii name) = false) :
    x.redacted.header? name = x.header? name := by
  unfold header? HeaderMap.get? HeaderMap.getKey? redacted Log.redactHeaders
  simp only [List.find?_map]
  show ((x.headers.entries.find? fun entry => entry.1 == Text.lowerAscii name).map _).map _ = _
  cases hfind : x.headers.entries.find? fun entry => entry.1 == Text.lowerAscii name with
  | none => rfl
  | some entry =>
    have hkey : entry.1 = Text.lowerAscii name := by simpa using List.find?_some hfind
    simp only [Option.map_some, hkey, Log.redactedValue_of_not_sensitive h]

/-- The wait that a response asks for is not asked for in a sensitive header. -/
theorem retryAfter?_redacted (x : Http.Response) : retryAfter? x.redacted = retryAfter? x := by
  have hmillis : x.redacted.header? "retry-after-ms" = x.header? "retry-after-ms" :=
    x.header?_redacted (by decide)
  have hmillis' : x.redacted.header? "x-ms-retry-after-ms" = x.header? "x-ms-retry-after-ms" :=
    x.header?_redacted (by decide)
  have hseconds : x.redacted.header? "retry-after" = x.header? "retry-after" :=
    x.header?_redacted (by decide)
  simp only [retryAfter?, retryAfterMillisNames, List.findSome?, headerCount?, hmillis, hmillis',
    hseconds]

end HttpPipeline
