import HttpPipeline.Log.Message
import HttpPipeline.Proofs.Text.Fields

/-! # The lines of a request message

  A request is logged on a line of its own, and so is each of its headers. Names and values are
  written as they are, however: a value is shortened or left out, but a line break in it stays, and
  what comes after it looks like a line of the message. Main statement: the lines of the message of
  any request are those of what is written for the request and for each header; they are one for
  each header exactly if no name and no value, as it is logged, has a line break in it.
-/

namespace HttpPipeline.Log

/-! ## §1. What is written -/

/-- The lines of a text. -/
def linesOf (text : String) : List String :=
  Text.parts '\n' text

/-- What is written for the request itself. -/
def requestEntry (r : Request) : String :=
  "HTTP Request : " ++ r.method.name ++ " " ++ r.url

/-- What is written for a header. -/
def headerEntry (header : String × String) : String :=
  "\t" ++ header.1 ++ " : " ++ loggedValue header.1 header.2

theorem headerLine_eq (name value : String) :
    headerLine name value = "\n" ++ headerEntry (name, value) := by
  have hbreak : ("\n\t" : String) = "\n" ++ "\t" := by decide
  simp only [headerLine, headerEntry, hbreak, String.append_assoc]

/-- Headers are written behind a text with a line break before each of them. -/
theorem append_headerLines (front : String) (headers : List (String × String)) :
    front ++ headerLines headers = "\n".intercalate (front :: headers.map headerEntry) := by
  induction headers generalizing front with
  | nil =>
    rw [List.map_nil, String.intercalate_singleton]
    exact String.append_empty
  | cons header headers ih =>
    have hjoin : headerLines (header :: headers) =
        headerLine header.1 header.2 ++ headerLines headers := String.join_cons
    -- What was written first has one header more behind it.
    calc front ++ headerLines (header :: headers)
        = front ++ "\n" ++ (headerEntry header ++ headerLines headers) := by
          rw [hjoin, headerLine_eq, String.append_assoc, String.append_assoc]
      _ = "\n".intercalate (front :: (header :: headers).map headerEntry) := by
          rw [ih, List.map_cons, String.intercalate_cons_cons]

/-- **The lines of a message** are those of what is written for the request and the headers. -/
theorem linesOf_requestMessage (r : Request) :
    linesOf (requestMessage r) =
      (requestEntry r :: r.headers.map headerEntry).flatMap linesOf := by
  have hmessage : requestMessage r = requestEntry r ++ headerLines r.headers := rfl
  rw [hmessage, append_headerLines]
  exact Text.parts_intercalate '\n' (requestEntry r) (r.headers.map headerEntry)

/-! ## §2. Line breaks -/

/-- There is a line break in what is written for a request only if there is one in its URL. -/
theorem no_break_in_requestEntry {r : Request} (h : '\n' ∉ r.url.toList) :
    '\n' ∉ (requestEntry r).toList := by
  have hwords : '\n' ∉ "HTTP Request : ".toList := by decide
  have hmethod : '\n' ∉ r.method.name.toList := by
    cases r.method <;> decide
  have hblank : '\n' ∉ " ".toList := by decide
  show '\n' ∉ ("HTTP Request : " ++ r.method.name ++ " " ++ r.url).toList
  rw [String.toList_append, String.toList_append, String.toList_append]
  simp only [List.mem_append, not_or]
  exact ⟨⟨⟨hwords, hmethod⟩, hblank⟩, h⟩

/-- Shortening brings no line break. -/
theorem no_break_in_shorten {value : String} (h : '\n' ∉ value.toList) :
    '\n' ∉ (shorten value).toList := by
  have hellipsis : '\n' ∉ ellipsis.toList := by decide
  rw [shorten, String.toList_ofList, shortenChars]
  split
  case isTrue => exact h
  case isFalse =>
    rw [List.mem_append, List.mem_append]
    rintro ((hmem | hmem) | hmem)
    · exact h (List.mem_of_mem_take hmem)
    · exact hellipsis hmem
    · exact h (List.mem_of_mem_drop hmem)

/-- There is a line break in what is written for a header exactly if there is one in its name, or
in its value as it is shortened, which is not written if it is a secret. -/
theorem no_break_in_headerEntry_iff {header : String × String} :
    '\n' ∉ (headerEntry header).toList ↔
      '\n' ∉ header.1.toList ∧
        (isSensitive header.1 = true ∨ '\n' ∉ (shorten header.2).toList) := by
  have hredacted : '\n' ∉ redacted.toList := by decide
  rw [headerEntry, loggedValue]
  split
  case isTrue hsecret => simp [hsecret, hredacted]
  case isFalse hsecret => simp [hsecret]

/-! ## §3. One line for each header -/

/-- **Headers have their lines to themselves** unless a line break is logged. The lines of the
message of a request whose URL has no line break are one for the request and then, for each header
in order, those of its name and its value as it is logged: `REDACTED` for a secret, and the value
shortened otherwise. So there are as many lines more as there are line breaks in these, and there
is one line for each header exactly if there are none. That is so if no name and no value has a
line break. A header more brings the lines of what is written for it. -/
theorem request_message_lines {r : Request} (hurl : '\n' ∉ r.url.toList) :
    let first := "HTTP Request : " ++ r.method.name ++ " " ++ r.url
    let entry (name value : String) :=
      "\t" ++ name ++ " : " ++ if isSensitive name then "REDACTED" else shorten value
    let entries := r.headers.map fun header => entry header.1 header.2
    let lines := linesOf (requestMessage r)
    lines = first :: entries.flatMap linesOf ∧
    lines.length = 1 + r.headers.length + (entries.flatMap String.toList).count '\n' ∧
    (lines = first :: entries ↔
      ∀ header ∈ r.headers, '\n' ∉ header.1.toList ∧
        (isSensitive header.1 = true ∨ '\n' ∉ (shorten header.2).toList)) ∧
    ((∀ header ∈ r.headers, '\n' ∉ header.1.toList ∧ '\n' ∉ header.2.toList) →
      lines = first :: entries) ∧
    ∀ name value r', r.appendHeader name value = .ok r' →
      linesOf (requestMessage r') = lines ++ linesOf (entry (Text.trim name) value) := by
  intro first entry entries lines
  have hfirst : linesOf first = [first] := Text.parts_of_not_mem (no_break_in_requestEntry hurl)
  have hlines : lines = first :: entries.flatMap linesOf := by
    have hall : lines = (first :: entries).flatMap linesOf := linesOf_requestMessage r
    rw [hall, List.flatMap_cons, hfirst]
    rfl
  have hself : lines = first :: entries ↔
      ∀ header ∈ r.headers, '\n' ∉ header.1.toList ∧
        (isSensitive header.1 = true ∨ '\n' ∉ (shorten header.2).toList) := by
    rw [hlines, List.cons.injEq, and_iff_right rfl]
    refine Text.flatMap_parts_eq_self_iff.trans (List.forall_mem_map.trans ?_)
    exact forall₂_congr fun header _ => no_break_in_headerEntry_iff
  refine ⟨hlines, ?_, hself, fun hplain => hself.mpr fun header hheader => ?_, ?_⟩
  · have hcount : (entries.flatMap linesOf).length =
        entries.length + (entries.flatMap String.toList).count '\n' :=
      Text.length_flatMap_parts '\n' entries
    have hentries : entries.length = r.headers.length := List.length_map _
    rw [hlines, List.length_cons, hcount, hentries]
    omega
  · obtain ⟨hname, hvalue⟩ := hplain header hheader
    exact ⟨hname, .inr (no_break_in_shorten hvalue)⟩
  · intro name value r' happend
    obtain ⟨_, _, rfl⟩ := Request.appendHeader_eq_ok_iff.mp happend
    have hmore := linesOf_requestMessage
      { r with headers := r.headers ++ [(Text.trim name, value)] }
    rw [hmore, List.map_append, ← List.cons_append, List.flatMap_append]
    exact congrArg₂ (· ++ ·) (linesOf_requestMessage r).symm (List.append_nil _)

/-- Of three line breaks one is in a secret, one in the part of a value that is left out, and one
is written. -/
theorem request_message_lines_of_three_breaks :
    let r : Request := {
      method := .put, url := "https://e.example/c", urlCapacity := 64, headerCapacity := 4
      headers := [("Authorization", "Bearer\nsecret"),
        ("x-list", "abcdefghijklmnopqrstuvwxyz\nabcdefghijklmnopqrstuvwxyz"), ("x-note", "a\nb")] }
    '\n' ∉ r.url.toList ∧ linesOf (requestMessage r) =
      ["HTTP Request : PUT https://e.example/c", "\tAuthorization : REDACTED",
        "\tx-list : abcdefghijklmnopqrstuvw ... efghijklmnopqrstuvwxyz", "\tx-note : a", "b"] := by
  intro r
  have hurl : '\n' ∉ r.url.toList := by decide
  obtain ⟨hlines, _⟩ := request_message_lines hurl
  exact ⟨hurl, hlines.trans (by decide)⟩

/-- A value that is accepted may bring a line like that of a further header, so that the message is
the same as that of a request which has this header. -/
theorem header_line_forged_by_value :
    let r : Request := {
      method := .get, url := "https://e.example/", urlCapacity := 2048, headerCapacity := 16 }
    ∃ one two, r.appendHeader "x-note" "a\n\tx-forged : b" = .ok one ∧
      (r.appendHeader "x-note" "a" >>= fun next => next.appendHeader "x-forged" "b") = .ok two ∧
      '\n' ∉ one.url.toList ∧ (linesOf (requestMessage one)).length ≠ 1 + one.headers.length ∧
      linesOf (requestMessage one) =
        ["HTTP Request : GET https://e.example/", "\tx-note : a", "\tx-forged : b"] ∧
      requestMessage one = requestMessage two := by
  exact ⟨_, _, rfl, rfl, by decide, by decide, by decide, by decide⟩

end HttpPipeline.Log
