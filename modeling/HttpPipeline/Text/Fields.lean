/-! # Fields between separators

  A text cut at every occurrence of a separator. A text with `n` separators has `n + 1`
  fields, of which some may be empty, and joining them with the separator gives the text
  back.
-/

namespace HttpPipeline.Text

/-- The fields of `cs` between occurrences of `sep`, the empty ones included. -/
def fields (sep : Char) : List Char → List (List Char)
  | [] => [[]]
  | c :: cs =>
    if c = sep then [] :: fields sep cs
    else
      match fields sep cs with
      | [] => [[c]]
      | field :: rest => (c :: field) :: rest

theorem fields_ne_nil (sep : Char) (cs : List Char) : fields sep cs ≠ [] := by
  cases cs with
  | nil => simp [fields]
  | cons c cs =>
    simp only [fields]
    split
    · simp
    · split <;> simp

end HttpPipeline.Text
