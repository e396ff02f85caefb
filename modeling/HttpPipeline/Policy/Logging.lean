import HttpPipeline.Log.Message
import HttpPipeline.Pipeline

/-! # Logging policy

  Reports every request before it goes on, and its response when it comes back. A failure is
  not reported.
-/

namespace HttpPipeline

/-- The policy that logs requests and responses. -/
def Policy.logging {σ : Type} : Policy σ where
  name := "logging"
  process next call :=
    let started := call.now
    let (outcome, call) := next.run (call.logText .httpRequest (Log.requestMessage call.request))
    match outcome with
    | .error e => (.error e, call)
    | .ok response =>
      let message := Log.responseMessage response (call.now - started) call.request
      (.ok response, call.logText .httpResponse message)

/-- The description of a logging policy. -/
def Policy.loggingDescription : String := "LoggingPolicy \x7b .. \x7d"

end HttpPipeline
