import HttpPipeline.Context
import HttpPipeline.Http.Response
import HttpPipeline.Log.Registry
import HttpPipeline.Request

/-! # Calls in progress

  The state that a call runs on, in three layers. A `Session` is what a transport and a
  credential work on: the clock, the bounds of the call and the state of the peer. An
  `Ambient` adds what outlives the call and they cannot see: the log registry, the trace of
  events and the fault of a log callback. A `Call` adds the request.
-/

namespace HttpPipeline

/-! ## §1. Events -/

/-- What an HTTP client is asked to send. -/
structure ClientCall where
  /-- The method. -/
  method : Http.Method
  /-- The URL. -/
  url : String
  /-- The headers, in order. -/
  headers : List (String × String)
  /-- The content, if there is a body. -/
  body : Option Bytes
  deriving DecidableEq, Repr

/-- Something that can be observed of a call. -/
inductive Occurrence where
  /-- A policy left a mark. -/
  | marked (text : String)
  /-- A policy looked at the rest of the chain. -/
  | inspected (remaining : Nat) (description : String)
  /-- A credential was asked to authorize the request. -/
  | authorizing
  /-- A transport was given a request. -/
  | sent (request : Request)
  /-- An HTTP client was called. -/
  | clientCalled (call : ClientCall)
  /-- A log message was delivered. -/
  | logged (delivery : Log.Delivery)
  deriving DecidableEq, Repr

/-- An occurrence and its instant. -/
structure Event where
  /-- When it happened. -/
  instant : Nat
  /-- What happened. -/
  occurrence : Occurrence
  deriving DecidableEq, Repr

/-! ## §2. The layers of state -/

/-- What a transport and a credential work on. -/
structure Session (σ : Type) where
  /-- The present instant. -/
  now : Nat := 0
  /-- The bounds of the call in time. -/
  context : Context := {}
  /-- The state of the peer. -/
  peer : σ

/-- What surrounds a call. -/
structure Ambient (σ : Type) extends Session σ where
  /-- The log registry that policies report to. -/
  registry : Log.Registry := {}
  /-- The events so far, the earliest first. -/
  trace : List Event := []
  /-- The first fault that broke off a log callback, if one did. -/
  fault : Option Log.UntrustedCode := none

/-- A call in progress. -/
structure Call (σ : Type) extends Ambient σ where
  /-- The request as it is now. -/
  request : Request

variable {σ : Type}

namespace Session

/-- Whether the call is cancelled now. -/
def isCancelled (s : Session σ) : Bool :=
  s.context.isCancelled s.now

end Session

namespace Ambient

/-- Adds an event that happens now. -/
def record (a : Ambient σ) (occurrence : Occurrence) : Ambient σ :=
  { a with trace := a.trace ++ [⟨a.now, occurrence⟩] }

/-- Logs a message. -/
def log (a : Ambient σ) (c : Log.Classification) (message : Bytes) : Ambient σ :=
  let written := a.registry.write c message
  { a with
    registry := written.registry
    trace := a.trace ++ written.deliveries.map fun delivery => ⟨a.now, .logged delivery⟩
    fault := a.fault <|> written.fault }

/-- What is known of a result that calls led to. The fault of a log callback ends the program,
so what the calls came to after it is never seen: there is the fault alone. -/
def settle {α : Type} (a : Ambient σ) (result : α) : Except Log.UntrustedCode α :=
  match a.fault with
  | none => .ok result
  | some fault => .error fault

end Ambient

/-! ## §3. Exchanges -/

/-- How a call ends. -/
abbrev Outcome := Except Error Http.Response

/-- What a link of the chain does with a call. -/
abbrev Exchange (σ : Type) := Call σ → Outcome × Call σ

namespace Call

/-- Adds an event that happens now. -/
def record (call : Call σ) (occurrence : Occurrence) : Call σ :=
  { call with toAmbient := call.toAmbient.record occurrence }

/-- Logs a message. -/
def log (call : Call σ) (c : Log.Classification) (message : Bytes) : Call σ :=
  { call with toAmbient := call.toAmbient.log c message }

/-- Logs a text. -/
def logText (call : Call σ) (c : Log.Classification) (message : String) : Call σ :=
  call.log c (Utf8.encode message)

/-- Goes on with the request changed, or ends with the failure to change it. -/
def withRequest (call : Call σ) (changed : Except Error Request) (rest : Exchange σ) :
    Outcome × Call σ :=
  match changed with
  | .error e => (.error e, call)
  | .ok request => rest { call with request }

@[simp] theorem request_record (call : Call σ) (occurrence : Occurrence) :
    (call.record occurrence).request = call.request := rfl
@[simp] theorem now_record (call : Call σ) (occurrence : Occurrence) :
    (call.record occurrence).now = call.now := rfl
@[simp] theorem context_record (call : Call σ) (occurrence : Occurrence) :
    (call.record occurrence).context = call.context := rfl
@[simp] theorem peer_record (call : Call σ) (occurrence : Occurrence) :
    (call.record occurrence).peer = call.peer := rfl
@[simp] theorem registry_record (call : Call σ) (occurrence : Occurrence) :
    (call.record occurrence).registry = call.registry := rfl
@[simp] theorem fault_record (call : Call σ) (occurrence : Occurrence) :
    (call.record occurrence).fault = call.fault := rfl

@[simp] theorem request_log (call : Call σ) (c : Log.Classification) (message : Bytes) :
    (call.log c message).request = call.request := rfl
@[simp] theorem toSession_log (call : Call σ) (c : Log.Classification) (message : Bytes) :
    (call.log c message).toSession = call.toSession := rfl
@[simp] theorem request_logText (call : Call σ) (c : Log.Classification) (message : String) :
    (call.logText c message).request = call.request := rfl
@[simp] theorem toSession_logText (call : Call σ) (c : Log.Classification) (message : String) :
    (call.logText c message).toSession = call.toSession := rfl

end Call

end HttpPipeline
