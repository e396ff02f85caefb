import HttpPipeline.Proofs.Request.Changes

/-! # What a request accepts

  A request is changed in place, step by step, and what a step has done stays done when a later
  one fails. So it is a matter of the order of the steps that a change which is refused leaves
  nothing behind: every check comes before the first piece that is written. `Edit` has the steps
  in their order, and they end with the whole change or with the request as it was. Main
  statement: which changes are accepted, what the others fail with, and that there is nothing in
  between.
-/

namespace HttpPipeline.Request

/-! ## §1. Changes in place -/

/-- Steps that change a request in place. A failure ends them and undoes nothing. -/
abbrev Edit := EStateM Error Request Unit

namespace Edit

/-- Fails unless there is a free place for a header. -/
def ensureHeaderCapacity : Edit := do
  let r ← get
  if r.headerCapacity ≤ r.headers.length then
    throw (.insufficientCapacity "header" (r.headers.length + 1) r.headerCapacity)

/-- Fails unless there is room for a URL of so many octets. -/
def ensureUrlCapacity (needed : Nat) : Edit := do
  let r ← get
  if r.urlCapacity < needed then
    throw (.insufficientCapacity "url" needed r.urlCapacity)

/-- Writes a header behind the others. -/
def writeHeader (name value : String) : Edit :=
  modify fun r => { r with headers := r.headers ++ [(name, value)] }

/-- Writes a piece of text behind the URL. -/
def writeUrl (piece : String) : Edit :=
  modify fun r => { r with url := r.url ++ piece }

/-- The steps that add a header. -/
def appendHeader (name value : String) : Edit := do
  let name := Text.trim name
  if name = "" then
    throw (.invalidConfig .emptyHeaderName)
  ensureHeaderCapacity
  writeHeader name value

/-- The steps that add a query parameter. The URL is written in four pieces. -/
def setQueryParameter (name value : String) : Edit := do
  if name = "" then
    throw (.invalidConfig .emptyQueryName)
  let r ← get
  ensureUrlCapacity (sizeWithParameter r.url name value)
  writeUrl (separator r.url)
  writeUrl name
  writeUrl "="
  writeUrl value

end Edit

/-- How a change ends that is made whole or not at all. -/
def whole (r : Request) : Except Error Request → EStateM.Result Error Request Unit
  | .ok r' => .ok () r'
  | .error e => .error e r

@[simp] theorem Edit.run_bind (first : Edit) (rest : Unit → Edit) (r : Request) :
    EStateM.run (first >>= rest) r =
      match first.run r with
      | .ok _ r' => (rest ()).run r'
      | .error e r' => .error e r' := by
  simp only [EStateM.run, bind, EStateM.bind]
  cases first r <;> rfl

@[simp] theorem Edit.run_ensureHeaderCapacity (r : Request) :
    ensureHeaderCapacity.run r =
      if r.headerCapacity ≤ r.headers.length then
        .error (.insufficientCapacity "header" (r.headers.length + 1) r.headerCapacity) r
      else .ok () r := by
  by_cases h : r.headerCapacity ≤ r.headers.length <;> simp [ensureHeaderCapacity, h]

@[simp] theorem Edit.run_ensureUrlCapacity (needed : Nat) (r : Request) :
    (ensureUrlCapacity needed).run r =
      if r.urlCapacity < needed then .error (.insufficientCapacity "url" needed r.urlCapacity) r
      else .ok () r := by
  by_cases h : r.urlCapacity < needed <;> simp [ensureUrlCapacity, h]

@[simp] theorem Edit.run_writeHeader (name value : String) (r : Request) :
    (writeHeader name value).run r =
      .ok () { r with headers := r.headers ++ [(name, value)] } := rfl

@[simp] theorem Edit.run_writeUrl (piece : String) (r : Request) :
    (writeUrl piece).run r = .ok () { r with url := r.url ++ piece } := rfl

/-- A header is added whole or not at all. -/
theorem run_edit_appendHeader (r : Request) (name value : String) :
    (Edit.appendHeader name value).run r = r.whole (r.appendHeader name value) := by
  unfold Edit.appendHeader appendHeader
  by_cases hname : Text.trim name = ""
  · simp only [hname, if_true]
    rfl
  · by_cases hroom : r.headerCapacity ≤ r.headers.length
    · simp [hname, hroom, whole]
    · simp [hname, hroom, whole]

/-- A query parameter is added whole or not at all. -/
theorem run_edit_setQueryParameter (r : Request) (name value : String) :
    (Edit.setQueryParameter name value).run r = r.whole (r.setQueryParameter name value) := by
  unfold Edit.setQueryParameter setQueryParameter
  by_cases hname : name = ""
  · simp only [hname, if_true]
    rfl
  · by_cases hroom : r.urlCapacity < sizeWithParameter r.url name value
    · simp [hname, hroom, whole]
    · simp [hname, hroom, whole]

/-! ## §2. Acceptance -/

/-- Why a header is refused. A blank name is reported first. -/
theorem appendHeader_eq_error_iff {r : Request} {name value : String} {e : Error} :
    r.appendHeader name value = .error e ↔
      (Text.trim name = "" ∧ e = .invalidConfig .emptyHeaderName) ∨
      (Text.trim name ≠ "" ∧ r.headerCapacity ≤ r.headers.length ∧
        e = .insufficientCapacity "header" (r.headers.length + 1) r.headerCapacity) := by
  unfold appendHeader
  by_cases hname : Text.trim name = ""
  · simp [hname, eq_comm]
  · by_cases hroom : r.headerCapacity ≤ r.headers.length
    · simp [hname, hroom, eq_comm]
    · simp [hname, hroom]

/-- Why a query parameter is refused. An empty name is reported first. -/
theorem setQueryParameter_eq_error_iff {r : Request} {name value : String} {e : Error} :
    r.setQueryParameter name value = .error e ↔
      (name = "" ∧ e = .invalidConfig .emptyQueryName) ∨
      (name ≠ "" ∧ r.urlCapacity < sizeWithParameter r.url name value ∧
        e = .insufficientCapacity "url" (sizeWithParameter r.url name value) r.urlCapacity) := by
  unfold setQueryParameter
  by_cases hname : name = ""
  · simp [hname, eq_comm]
  · by_cases hroom : r.urlCapacity < sizeWithParameter r.url name value
    · simp [hname, hroom, eq_comm]
    · simp [hname, hroom]

/-- **A change is made whole or not at all.** The steps that add a header or a query parameter
end with the changed request, or with a failure and the request as it was, each of its parts.
A header is accepted exactly if its name, without the blank characters around it, is not empty,
and there is a free place; it is then the last header, under that name. A query parameter is
accepted exactly if its name is not empty and the URL with it, counted in octets, has room; the
URL then goes on with a separator, the name, an equals sign and the value. An empty name is
reported before a want of room, and a want of room with the size that the change would have led
to and with the whole room. -/
theorem changes_made_whole_or_refused (r : Request) (name value : String) :
    let bare := Text.trim name
    let url := r.url ++ (if '?' ∈ r.url.toList then "&" else "?") ++ name ++ "=" ++ value
    let size := r.url.utf8ByteSize + name.utf8ByteSize + value.utf8ByteSize + 2
    (Edit.appendHeader name value).run r = r.whole (r.appendHeader name value) ∧
    (Edit.setQueryParameter name value).run r = r.whole (r.setQueryParameter name value) ∧
    (Text.IsTrimmed bare ∧ ∃ front back, name = front ++ bare ++ back ∧
      Text.isBlankText front = true ∧ Text.isBlankText back = true) ∧
    url.utf8ByteSize = size ∧
    (∀ r', r.appendHeader name value = .ok r' ↔
      bare ≠ "" ∧ r.headers.length < r.headerCapacity ∧
        r' = { r with headers := r.headers ++ [(bare, value)] }) ∧
    (∀ e, r.appendHeader name value = .error e ↔
      (bare = "" ∧ e = .invalidConfig .emptyHeaderName) ∨
      (bare ≠ "" ∧ r.headerCapacity ≤ r.headers.length ∧
        e = .insufficientCapacity "header" (r.headers.length + 1) r.headerCapacity)) ∧
    (∀ r', r.setQueryParameter name value = .ok r' ↔
      name ≠ "" ∧ size ≤ r.urlCapacity ∧ r' = { r with url }) ∧
    ∀ e, r.setQueryParameter name value = .error e ↔
      (name = "" ∧ e = .invalidConfig .emptyQueryName) ∨
      (name ≠ "" ∧ r.urlCapacity < size ∧
        e = .insufficientCapacity "url" size r.urlCapacity) := by
  intro bare url size
  have hsize : sizeWithParameter r.url name value = size := sizeWithParameter_eq r.url name value
  have hurl : url = r.url ++ separator r.url ++ name ++ "=" ++ value := rfl
  refine ⟨run_edit_appendHeader r name value, run_edit_setQueryParameter r name value,
    ⟨Text.isTrimmed_trim name, Text.exists_blanks_around_trim name⟩, ?_,
    fun r' => appendHeader_eq_ok_iff, fun e => appendHeader_eq_error_iff, fun r' => ?_,
    fun e => ?_⟩
  · rw [hurl, utf8ByteSize_with_parameter, hsize]
  · rw [setQueryParameter_eq_ok_iff, hsize, hurl]
  · rw [setQueryParameter_eq_error_iff, hsize]

/-- A parameter that fits exactly is accepted; one octet more is refused, although it is no
character more. -/
example :
    let r : Request := { method := .get, url := "/a", urlCapacity := 6, headerCapacity := 0 }
    (r.setQueryParameter "p" "1").toOption.map Request.url = some "/a?p=1" ∧
      (Edit.setQueryParameter "p" "ü").run r = .error (.insufficientCapacity "url" 7 6) r :=
  ⟨by decide, rfl⟩

end HttpPipeline.Request
