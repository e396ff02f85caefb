import HttpPipeline.Policy.ApiVersion
import HttpPipeline.Policy.Credential
import HttpPipeline.Policy.Logging
import HttpPipeline.Policy.Retry
import HttpPipeline.Policy.Telemetry

/-! # Pipeline options

  The settings of a client's pipeline, and the pipeline that they stand for: API version if
  one is set, telemetry, retry, credential, logging, and the transport at the end.
-/

namespace HttpPipeline

/-- The limits of a transport. -/
structure TransportOptions where
  /-- How long an exchange may take in seconds. -/
  timeoutSecs : UInt64 := 120
  /-- How long an idle connection is kept in seconds. -/
  poolIdleTimeoutSecs : UInt64 := 90
  deriving DecidableEq, Repr

/-- The settings of a pipeline. -/
structure PipelineOptions where
  /-- The API version to ask for, if any. -/
  apiVersion : Option ApiVersionOptions := none
  /-- What the sender says of itself. -/
  telemetry : TelemetryOptions := {}
  /-- How often and when a request is sent again. -/
  retry : RetryOptions := {}
  /-- The limits of the transport. -/
  transport : TransportOptions := {}
  deriving DecidableEq, Repr

namespace PipelineOptions

variable {σ : Type}

/-- The policies that put the API version on requests: one if a version is set. -/
def apiVersionPolicies (o : PipelineOptions) : Except Error (List (Policy σ)) :=
  match o.apiVersion with
  | none => .ok []
  | some apiVersion => apiVersion.validate.map fun valid => [Policy.apiVersion valid]

/-- The pipeline of a component's client. -/
def assemble (o : PipelineOptions) (component version : String) (credential : Credential σ)
    (transport : Transport σ) : Except Error (Pipeline σ) := do
  let stamping ← o.apiVersionPolicies
  let userAgent ← o.telemetry.userAgent component version
  return {
    policies := stamping ++ [Policy.telemetry userAgent, Policy.retry o.retry,
      Policy.credential credential, Policy.logging]
    transport }

end PipelineOptions

end HttpPipeline
