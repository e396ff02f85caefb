import HttpPipeline.Pipeline

/-! # Telemetry policy

  Tells the service which software sends a request, in the header `User-Agent`.
-/

namespace HttpPipeline

/-- What the sender says of itself. -/
structure TelemetryOptions where
  /-- The application that uses the client. -/
  applicationId : Option String := none
  deriving DecidableEq, Repr

/-- How many characters an application id may have. -/
def maxApplicationIdLength : Nat := 24

/-- What a client says of itself. -/
def clientAgent (component version : String) : String :=
  "nimbus-rs-" ++ component ++ "/" ++ version

/-- What a sender says of itself: the application, if it has an id, and the client. -/
def TelemetryOptions.userAgent (o : TelemetryOptions) (component version : String) :
    Except Error String :=
  let agent := clientAgent component version
  match o.applicationId with
  | none => .ok agent
  | some id =>
    if id = "" then .ok agent
    else if maxApplicationIdLength < id.length then
      .error (.invalidConfig (.longApplicationId maxApplicationIdLength))
    else .ok (id ++ " " ++ agent)

/-- The policy that adds the header `User-Agent` to every request. -/
def Policy.telemetry {σ : Type} (userAgent : String) : Policy σ where
  name := "telemetry"
  process next call :=
    call.withRequest (call.request.appendHeader "User-Agent" userAgent) next.run

end HttpPipeline
