import HttpPipeline.Command.Classifications

/-! # Command line

  The command `classifications` lists the log classifications that can be selected.
-/

open HttpPipeline

/-- What is printed when no known command is given. -/
def usage : String := "Usage: http-pipeline classifications"

/-- Runs a command. -/
def main (args : List String) : IO UInt32 := do
  match args with
  | ["classifications"] =>
    IO.print Command.classificationsText
    return 0
  | _ =>
    IO.eprintln usage
    return 2
