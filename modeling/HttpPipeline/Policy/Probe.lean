import HttpPipeline.Pipeline

/-! # Probes

  Policies that make the course of a call visible or force it: they mark the trace, answer or
  refuse by themselves, reject what comes back, or run the rest of the chain several times.
-/

namespace HttpPipeline.Policy

variable {σ : Type}

/-- The mark that a recorder leaves after the rest of the chain has run. -/
def returnMark (label : String) (outcome : Outcome) : String :=
  match outcome with
  | .ok _ => label ++ ":up"
  | .error _ => label ++ ":err"

/-- Marks the trace before and after the rest of the chain, and adds a header, if one is
given, after the first mark. -/
def recorder (label : String) (header : Option (String × String) := none) : Policy σ where
  name := "recorder"
  process next call :=
    let call := call.record (.marked (label ++ ":down"))
    let changed := match header with
      | none => .ok call.request
      | some (name, value) => call.request.appendHeader name value
    call.withRequest changed fun call =>
      let (outcome, call) := next.run call
      (outcome, call.record (.marked (returnMark label outcome)))

/-- Answers with a status and does not run the rest of the chain. -/
def shortCircuit (status : Http.Status) : Policy σ where
  name := "short-circuit"
  process _ call := (.ok { status }, call)

/-- Fails and does not run the rest of the chain. -/
def refuse (e : Error) : Policy σ where
  name := "refuse"
  process _ call := (.error e, call)

/-- Turns every response of the rest of the chain into a failure. -/
def reject : Policy σ where
  name := "reject"
  process next call :=
    let (outcome, call) := next.run call
    match outcome with
    | .error e => (.error e, call)
    | .ok response => (.error (.rejected "reject" s!"status {response.status}"), call)

/-- Runs the rest of a chain `more` times after an outcome, for the last outcome. -/
def rerun (rest : Exchange σ) : (more : Nat) → Outcome × Call σ → Outcome × Call σ
  | 0, last => last
  | more + 1, last => rerun rest more (rest last.2)

/-- Runs the rest of the chain a number of times, but at least once, on the same request. -/
def repeating (times : Nat) : Policy σ where
  name := "repeat"
  process next call := rerun next.run (times - 1) (next.run call)

/-- Adds a query parameter. -/
def query (name value : String) : Policy σ where
  name := "query"
  process next call := call.withRequest (call.request.setQueryParameter name value) next.run

/-- Marks the trace with what it sees of the rest of the chain. -/
def inspect : Policy σ where
  name := "inspect"
  process next call := next.run (call.record (.inspected next.remaining next.describe))

end HttpPipeline.Policy
