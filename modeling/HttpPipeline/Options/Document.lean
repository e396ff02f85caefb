import HttpPipeline.Blob.Client
import HttpPipeline.Document.Value

/-! # Options in documents

  Every section of the options is read field by field: a field that is not there has its
  default, a name that is no field is passed over, and a value of the wrong kind or out of
  range makes the whole document unusable. A section may also be written as a list of its
  fields in order, of which the last ones may be left out.
-/

namespace HttpPipeline.Options

open Document (Value)

/-! ## §1. The two formats -/

/-- In what the two document formats differ when options are read from them. -/
structure Dialect where
  /-- Whether a section written as a list may have more items than fields. -/
  extraItems : Bool
  /-- Whether a choice may be written as a table that has its name, with this value. -/
  choicePayload : Value → Bool

/-- In JSON a list has no item too many, and a choice may be written with the value null. -/
def Dialect.json : Dialect where
  extraItems := false
  choicePayload
    | .null => true
    | _ => false

/-- In TOML further items of a list are passed over, and a choice may be written with an empty
list or an empty table. -/
def Dialect.toml : Dialect where
  extraItems := true
  choicePayload
    | .list [] => true
    | .table [] => true
    | _ => false

/-! ## §2. Sections -/

/-- The values under a name. -/
def valuesOf (members : List (Option String × Value)) (name : String) : List Value :=
  (members.filter fun member => member.1 == some name).map Prod.snd

/-- The one value under a name, if there is one. Two values under a name cannot be read. -/
def memberOf (members : List (Option String × Value)) (name : String) :
    Option (Option Value) :=
  match valuesOf members name with
  | [] => some none
  | [v] => some (some v)
  | _ => none

/-- The values of a section's fields, in the order of their names. -/
def fieldValues (d : Dialect) (names : List String) : Value → Option (List (Option Value))
  | .table members =>
    if members.all fun member => member.1.isSome then names.mapM (memberOf members) else none
  | .list items =>
    if items.length ≤ names.length || d.extraItems then
      some ((List.range names.length).map fun i => items[i]?)
    else none
  | .datetime => some (names.map fun _ => none)
  | _ => none

/-- The field that is read with `read`, or its default if it is not there. -/
def fieldOr {α : Type} (read : Value → Option α) (default : α) : Option Value → Option α
  | none => some default
  | some v => read v

/-- The field that is read with `read`, which has to be there. -/
def requiredField {α : Type} (read : Value → Option α) : Option Value → Option α
  | none => none
  | some v => read v

/-! ## §3. Values of fields -/

/-- A whole number from zero up to a bound. -/
def natBelow? (bound : Nat) : Value → Option Nat
  | .integer n => if 0 ≤ n && n < bound then some n.toNat else none
  | _ => none

/-- A number of sixteen bits. -/
def word16? (v : Value) : Option UInt16 :=
  (natBelow? UInt16.size v).map UInt16.ofNat

/-- A number of thirty-two bits. -/
def word32? (v : Value) : Option UInt32 :=
  (natBelow? UInt32.size v).map UInt32.ofNat

/-- A number of sixty-four bits. -/
def word64? (v : Value) : Option UInt64 :=
  (natBelow? UInt64.size v).map UInt64.ofNat

/-- A text. -/
def text? : Value → Option String
  | .string s => some s
  | _ => none

/-- A value that may also be null, which stands for none. -/
def optional {α : Type} (read : Value → Option α) : Value → Option (Option α)
  | .null => some none
  | v => (read v).map some

/-- A list of values that are each read with `read`. -/
def listOf {α : Type} (read : Value → Option α) : Value → Option (List α)
  | .list items => items.mapM read
  | _ => none

/-- The name of a location. -/
def locationName : ApiVersionLocation → String
  | .header => "header"
  | .queryParameter => "query_parameter"

/-- The location of a name. -/
def locationOfName? (name : String) : Option ApiVersionLocation :=
  [ApiVersionLocation.header, .queryParameter].find? fun l => locationName l == name

/-- A location: its name, or a table that has its name alone. -/
def readLocation (d : Dialect) : Value → Option ApiVersionLocation
  | .string name => locationOfName? name
  | .table [(some name, payload)] =>
    if d.choicePayload payload then locationOfName? name else none
  | _ => none

/-! ## §4. Reading options -/

/-- Reads API version options, of which only the location has a default. -/
def readApiVersion (d : Dialect) (v : Value) : Option ApiVersionOptions :=
  match fieldValues d ["location", "name", "version"] v with
  | some [location, name, version] => do
    return {
      location := ← fieldOr (readLocation d) .header location
      name := ← requiredField text? name
      version := ← requiredField text? version }
  | _ => none

/-- Reads telemetry options. -/
def readTelemetry (d : Dialect) (v : Value) : Option TelemetryOptions :=
  match fieldValues d ["application_id"] v with
  | some [applicationId] => do
    return { applicationId := ← fieldOr (optional text?) none applicationId }
  | _ => none

/-- Reads retry options. -/
def readRetry (d : Dialect) (v : Value) : Option RetryOptions :=
  let default : RetryOptions := {}
  match fieldValues d ["max_retries", "retry_delay_ms", "max_retry_delay_ms", "status_codes"] v
    with
  | some [maxRetries, retryDelay, maxRetryDelay, statusCodes] => do
    return {
      maxRetries := ← fieldOr word32? default.maxRetries maxRetries
      retryDelay := ← fieldOr word64? default.retryDelay retryDelay
      maxRetryDelay := ← fieldOr word64? default.maxRetryDelay maxRetryDelay
      statusCodes := ← fieldOr (listOf word16?) default.statusCodes statusCodes }
  | _ => none

/-- Reads transport options. -/
def readTransport (d : Dialect) (v : Value) : Option TransportOptions :=
  let default : TransportOptions := {}
  match fieldValues d ["timeout_secs", "pool_idle_timeout_secs"] v with
  | some [timeout, poolIdleTimeout] => do
    return {
      timeoutSecs := ← fieldOr word64? default.timeoutSecs timeout
      poolIdleTimeoutSecs := ← fieldOr word64? default.poolIdleTimeoutSecs poolIdleTimeout }
  | _ => none

/-- Reads pipeline options. -/
def readPipeline (d : Dialect) (v : Value) : Option PipelineOptions :=
  let default : PipelineOptions := {}
  match fieldValues d ["api_version", "telemetry", "retry", "transport"] v with
  | some [apiVersion, telemetry, retry, transport] => do
    return {
      apiVersion := ← fieldOr (optional (readApiVersion d)) default.apiVersion apiVersion
      telemetry := ← fieldOr (readTelemetry d) default.telemetry telemetry
      retry := ← fieldOr (readRetry d) default.retry retry
      transport := ← fieldOr (readTransport d) default.transport transport }
  | _ => none

/-- Reads upload options. -/
def readUpload (d : Dialect) (v : Value) : Option Blob.UploadOptions :=
  let default : Blob.UploadOptions := {}
  match fieldValues d ["content_type"] v with
  | some [contentType] => do
    return { contentType := ← fieldOr text? default.contentType contentType }
  | _ => none

/-! ## §5. Writing options -/

/-- A whole number as a value. -/
def ofNat (n : Nat) : Value :=
  .integer n

/-- A value that may be none, which is written as null. -/
def ofOptional {α : Type} (write : α → Value) : Option α → Value
  | none => .null
  | some a => write a

/-- API version options as a value. -/
def ofApiVersion (o : ApiVersionOptions) : Value :=
  .record [("location", .string (locationName o.location)), ("name", .string o.name),
    ("version", .string o.version)]

/-- Telemetry options as a value. -/
def ofTelemetry (o : TelemetryOptions) : Value :=
  .record [("application_id", ofOptional .string o.applicationId)]

/-- Retry options as a value. -/
def ofRetry (o : RetryOptions) : Value :=
  .record [("max_retries", ofNat o.maxRetries.toNat),
    ("retry_delay_ms", ofNat o.retryDelay.toNat),
    ("max_retry_delay_ms", ofNat o.maxRetryDelay.toNat),
    ("status_codes", .list (o.statusCodes.map fun status => ofNat status.toNat))]

/-- Transport options as a value. -/
def ofTransport (o : TransportOptions) : Value :=
  .record [("timeout_secs", ofNat o.timeoutSecs.toNat),
    ("pool_idle_timeout_secs", ofNat o.poolIdleTimeoutSecs.toNat)]

/-- Pipeline options as a value with every field written. -/
def ofPipeline (o : PipelineOptions) : Value :=
  .record [("api_version", ofOptional ofApiVersion o.apiVersion),
    ("telemetry", ofTelemetry o.telemetry), ("retry", ofRetry o.retry),
    ("transport", ofTransport o.transport)]

/-- Upload options as a value. -/
def ofUpload (o : Blob.UploadOptions) : Value :=
  .record [("content_type", .string o.contentType)]

end HttpPipeline.Options
