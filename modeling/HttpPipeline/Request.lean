import HttpPipeline.Error
import HttpPipeline.Http.Method
import HttpPipeline.Text.Blank
import HttpPipeline.Text.Utf8

/-! # Requests

  A request has bounded room: its URL may have so many octets, and it may have so many
  headers. What does not fit is refused and changes nothing. A request also has a mark in its
  header list, set before it is first sent; going back to the mark takes away the headers
  that one attempt to send it added.
-/

namespace HttpPipeline

/-- A request on its way to the transport. -/
structure Request where
  /-- The method. -/
  method : Http.Method
  /-- The URL, with its query. -/
  url : String
  /-- How many octets the URL may have. -/
  urlCapacity : Nat
  /-- The headers, in the order they were added and with repetitions. -/
  headers : List (String × String) := []
  /-- How many headers there may be. -/
  headerCapacity : Nat
  /-- How many headers stay when the request goes back to its mark. -/
  mark : Nat := 0
  /-- The content. -/
  body : Bytes := []
  deriving DecidableEq, Repr

namespace Request

/-! ## §1. New requests -/

/-- The room for the URL when none is asked for. -/
def defaultUrlCapacity : Nat := 2048

/-- The room for headers when none is asked for. -/
def defaultHeaderCapacity : Nat := 16

/-- A request with the given room and no headers. -/
def withCapacity (method : Http.Method) (url : String) (urlCapacity headerCapacity : Nat) :
    Except Error Request :=
  if urlCapacity < url.utf8ByteSize then
    .error (.insufficientCapacity "url" url.utf8ByteSize urlCapacity)
  else
    .ok { method, url, urlCapacity, headerCapacity }

/-- A request with the usual room and no headers. -/
def new (method : Http.Method) (url : String) : Except Error Request :=
  withCapacity method url defaultUrlCapacity defaultHeaderCapacity

/-! ## §2. Changing a request -/

/-- Replaces the content. -/
def withBody (r : Request) (body : Bytes) : Request :=
  { r with body }

/-- The value of the first header of a name, which may be in any ASCII case. -/
def header? (r : Request) (name : String) : Option String :=
  (r.headers.find? fun entry => Text.sameIgnoringCase entry.1 name).map Prod.snd

/-- Adds a header at the end. The name is taken without the blanks around it. -/
def appendHeader (r : Request) (name value : String) : Except Error Request :=
  let name := Text.trim name
  if name = "" then .error (.invalidConfig .emptyHeaderName)
  else if r.headerCapacity ≤ r.headers.length then
    .error (.insufficientCapacity "header" (r.headers.length + 1) r.headerCapacity)
  else .ok { r with headers := r.headers ++ [(name, value)] }

/-- What stands before the next query parameter of a URL. -/
def separator (url : String) : String :=
  if '?' ∈ url.toList then "&" else "?"

/-- How many octets a URL has once a query parameter is added to it. -/
def sizeWithParameter (url name value : String) : Nat :=
  url.utf8ByteSize + 1 + name.utf8ByteSize + 1 + value.utf8ByteSize

/-- The separator and the equals sign are one octet each. -/
theorem sizeWithParameter_eq (url name value : String) :
    sizeWithParameter url name value =
      url.utf8ByteSize + name.utf8ByteSize + value.utf8ByteSize + 2 := by
  unfold sizeWithParameter
  omega

/-- Adds a query parameter at the end of the URL, as it is written. -/
def setQueryParameter (r : Request) (name value : String) : Except Error Request :=
  if name = "" then .error (.invalidConfig .emptyQueryName)
  else
    let needed := sizeWithParameter r.url name value
    if r.urlCapacity < needed then .error (.insufficientCapacity "url" needed r.urlCapacity)
    else .ok { r with url := r.url ++ separator r.url ++ name ++ "=" ++ value }

/-- A header is added exactly if its name has a character that is not blank and there is
room; nothing else changes then. -/
theorem appendHeader_eq_ok_iff {r r' : Request} {name value : String} :
    r.appendHeader name value = .ok r' ↔
      Text.trim name ≠ "" ∧ r.headers.length < r.headerCapacity ∧
        r' = { r with headers := r.headers ++ [(Text.trim name, value)] } := by
  unfold appendHeader
  by_cases hn : Text.trim name = ""
  · simp [hn]
  · by_cases hc : r.headerCapacity ≤ r.headers.length
    · simp [hn, hc, Nat.not_lt.mpr hc]
    · simp only [hn, hc, if_false, Except.ok.injEq]
      have hlt : r.headers.length < r.headerCapacity := by omega
      exact ⟨fun h => ⟨hn, hlt, h.symm⟩, fun h => h.2.2.symm⟩

/-- A query parameter is added exactly if it has a name and there is room; nothing else
changes then. -/
theorem setQueryParameter_eq_ok_iff {r r' : Request} {name value : String} :
    r.setQueryParameter name value = .ok r' ↔
      name ≠ "" ∧ sizeWithParameter r.url name value ≤ r.urlCapacity ∧
        r' = { r with url := r.url ++ separator r.url ++ name ++ "=" ++ value } := by
  unfold setQueryParameter
  by_cases hn : name = ""
  · simp [hn]
  · by_cases hc : r.urlCapacity < sizeWithParameter r.url name value
    · simp [hn, hc, Nat.not_le.mpr hc]
    · simp only [hn, hc, if_false, Except.ok.injEq]
      have hle : sizeWithParameter r.url name value ≤ r.urlCapacity := by omega
      exact ⟨fun h => ⟨hn, hle, h.symm⟩, fun h => h.2.2.symm⟩

/-! ## §3. The mark -/

/-- Sets the mark after the present headers. -/
def markHeaders (r : Request) : Request :=
  { r with mark := r.headers.length }

/-- Takes away the headers after the mark. -/
def dropMarkedHeaders (r : Request) : Request :=
  { r with headers := r.headers.take r.mark }

@[simp] theorem headers_markHeaders (r : Request) : r.markHeaders.headers = r.headers := rfl
@[simp] theorem mark_markHeaders (r : Request) :
    r.markHeaders.mark = r.headers.length := rfl
@[simp] theorem headers_dropMarkedHeaders (r : Request) :
    r.dropMarkedHeaders.headers = r.headers.take r.mark := rfl
@[simp] theorem mark_dropMarkedHeaders (r : Request) :
    r.dropMarkedHeaders.mark = r.mark := rfl

/-- Going back to the mark twice is going back once. -/
theorem dropMarkedHeaders_idem (r : Request) :
    r.dropMarkedHeaders.dropMarkedHeaders = r.dropMarkedHeaders := by
  simp [dropMarkedHeaders, List.take_take]

/-- Going back to a mark that was just set changes no header. -/
theorem headers_dropMarkedHeaders_markHeaders (r : Request) :
    r.markHeaders.dropMarkedHeaders.headers = r.headers := by
  simp

end Request

end HttpPipeline
