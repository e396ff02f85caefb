import HttpPipeline.Text.Ascii

/-! # Header maps

  The headers of a response: a finite map from names to values. A name is stored in lower
  case, so that no two entries differ only in the case of ASCII letters. A header that
  arrives more than once holds its values joined by a comma and a space.
-/

namespace HttpPipeline.Http

/-- The headers of a response. The order of the entries carries no meaning. -/
structure HeaderMap where
  /-- The names in lower case, with their values. -/
  entries : List (String × String) := []
  deriving DecidableEq, Repr

namespace HeaderMap

/-- What stands between the values of a header that arrived more than once. -/
def joint : String := ", "

/-- The value stored under exactly this key. -/
def getKey? (h : HeaderMap) (key : String) : Option String :=
  (h.entries.find? fun entry => entry.1 == key).map Prod.snd

/-- The value of a header, whose name may be in any ASCII case. -/
def get? (h : HeaderMap) (name : String) : Option String :=
  h.getKey? (Text.lowerAscii name)

/-- The entries after the value under `key` became `value`. A key that is new comes last. -/
def update (key value : String) : List (String × String) → List (String × String)
  | [] => [(key, value)]
  | entry :: rest =>
    if entry.1 == key then (key, value) :: rest else entry :: update key value rest

/-- Sets a header, whatever value it had before. -/
def insert (h : HeaderMap) (name value : String) : HeaderMap :=
  ⟨update (Text.lowerAscii name) value h.entries⟩

/-- Adds a value to a header. -/
def append (h : HeaderMap) (name value : String) : HeaderMap :=
  match h.get? name with
  | none => h.insert name value
  | some present => h.insert name (present ++ joint ++ value)

@[simp] theorem get?_empty (name : String) : ({} : HeaderMap).get? name = none := rfl

/-- Updating a key sets what is stored under it and under no other. -/
theorem find?_update (key value other : String) (entries : List (String × String)) :
    ((update key value entries).find? fun entry => entry.1 == other).map Prod.snd =
      if key = other then some value
      else (entries.find? fun entry => entry.1 == other).map Prod.snd := by
  induction entries with
  | nil => by_cases h : key = other <;> simp [update, h]
  | cons entry rest ih =>
    by_cases he : entry.1 = key
    · by_cases h : key = other <;> simp [update, he, h]
    · by_cases ho : entry.1 = other
      · have hk : ¬ key = other := fun h => he (ho.trans h.symm)
        simp [update, ho, hk, Ne.symm hk]
      · have hb : (entry.1 == other) = false := by simpa using ho
        simp only [update, beq_iff_eq, he, if_false, List.find?_cons, hb, ih]

/-- Setting a header gives it the value, in any ASCII case of its name, and leaves the
others. -/
theorem get?_insert (h : HeaderMap) (name value other : String) :
    (h.insert name value).get? other =
      if Text.sameIgnoringCase name other then some value else h.get? other := by
  simp [get?, getKey?, insert, find?_update, Text.sameIgnoringCase_iff]

/-- Adding to a header joins the value to the one it has, and leaves the others. -/
theorem get?_append (h : HeaderMap) (name value other : String) :
    (h.append name value).get? other =
      if Text.sameIgnoringCase name other then
        some (match h.get? name with
          | none => value
          | some present => present ++ joint ++ value)
      else h.get? other := by
  unfold append
  cases hp : h.get? name with
  | none => rw [get?_insert]
  | some present => rw [get?_insert]

end HeaderMap

end HttpPipeline.Http
