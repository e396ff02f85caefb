import HttpPipeline.Text.Utf8

/-! # Environment variables

  The settings that a process is started with: a finite map from names to texts. Names are
  compared exactly.
-/

namespace HttpPipeline

/-- The variables that are set, each name once. -/
structure Environment where
  /-- The names with their values. -/
  vars : List (String × String) := []

namespace Environment

/-- The value of a variable, if it is set. -/
def get? (env : Environment) (name : String) : Option String :=
  (env.vars.find? fun entry => entry.1 == name).map Prod.snd

/-- The environment with a variable set, whatever value it had before. -/
def set (env : Environment) (name value : String) : Environment :=
  ⟨(name, value) :: env.vars.filter fun entry => entry.1 != name⟩

/-- The environment in which the given variables were set in this order. -/
def ofList (vars : List (String × String)) : Environment :=
  vars.foldl (fun env entry => env.set entry.1 entry.2) {}

/-- The environment with a variable set to octets. A variable whose octets are not UTF-8
cannot be read, and so counts as not set. -/
def setOctets (env : Environment) (name : String) (octets : Bytes) : Environment :=
  match Utf8.decode octets with
  | .ok value => env.set name value
  | .error _ => env

@[simp] theorem get?_set_self (env : Environment) (name value : String) :
    (env.set name value).get? name = some value := by
  simp [set, get?]

theorem get?_set_of_ne (env : Environment) {name other : String} (value : String)
    (h : other ≠ name) : (env.set name value).get? other = env.get? other := by
  have hne : (name == other) = false := by simpa using Ne.symm h
  simp only [set, get?, List.find?_cons, hne, List.find?_filter]
  congr 2
  funext entry
  by_cases he : entry.1 = other
  · simp [he, h]
  · simp [he]

end Environment

end HttpPipeline
