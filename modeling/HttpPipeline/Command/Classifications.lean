import HttpPipeline.Log.Filter

/-! # Listing the log classifications -/

namespace HttpPipeline.Command

/-- The row of a classification: its name in a column of 24 characters, its code in
hexadecimal and its facility. -/
def classificationRow (c : Log.Classification) : String :=
  let name := c.name
  "  " ++ name ++ String.ofList (List.replicate (24 - name.length) ' ') ++ " 0x"
    ++ Text.hexNumeral 6 (Text.unsigned32 c.code) ++ "  " ++ c.facility.label ++ "\n"

/-- The list of all log classifications, with a word on how to select some. -/
def classificationsText : String :=
  "Log classifications\n===================\n\n"
    ++ String.join (Log.Classification.all.map classificationRow)
    ++ "\nSelect with --log or " ++ Log.Filter.variableName ++ " (comma-separated names).\n"

end HttpPipeline.Command
