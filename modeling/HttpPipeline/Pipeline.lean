import HttpPipeline.Call

/-! # Pipelines

  A pipeline is a list of policies and a transport. Running it hands the call to the first
  policy, together with the rest of the chain. A policy may change the request, run the rest
  any number of times, look at the outcome and replace it, or end the call by itself. The
  transport has no rest to run, so every chain ends.
-/

namespace HttpPipeline

variable {σ : Type}

/-! ## §1. Transports -/

/-- What a transport did with a request. -/
structure Sent (σ : Type) where
  /-- How the exchange ended. -/
  outcome : Outcome
  /-- The session afterwards. -/
  session : Session σ
  /-- What happened meanwhile. -/
  events : List Event := []

/-- The last link of a chain, which performs the exchange. It sees the request and the
session, and can change only the session. -/
structure Transport (σ : Type) where
  /-- The name in descriptions. -/
  name : String
  /-- Performs an exchange. -/
  send : Request → Session σ → Sent σ

/-- A transport as the end of a chain. -/
def Transport.exchange (t : Transport σ) : Exchange σ := fun call =>
  let sent := t.send call.request call.toSession
  (sent.outcome,
    { call with toSession := sent.session, trace := call.trace ++ sent.events })

/-! ## §2. Policies -/

/-- The rest of a chain, as a policy sees it. -/
structure Next (σ : Type) where
  /-- How many policies are left before the transport. -/
  remaining : Nat
  /-- The name of the transport. -/
  transport : String
  /-- Runs the rest of the chain. -/
  run : Exchange σ

/-- The description of the rest of a chain. -/
def Next.describe (next : Next σ) : String :=
  "Next \x7b remaining: " ++ toString next.remaining ++ ", transport: "
    ++ Text.quoted next.transport ++ " \x7d"

/-- A link of a chain before the transport. -/
structure Policy (σ : Type) where
  /-- The name in descriptions. -/
  name : String
  /-- Handles a call, with the rest of the chain at hand. -/
  process : Next σ → Exchange σ

/-! ## §3. Chains -/

/-- The chain of some policies and a transport. -/
def Next.ofChain : List (Policy σ) → Transport σ → Next σ
  | [], transport => ⟨0, transport.name, transport.exchange⟩
  | policy :: rest, transport =>
    ⟨rest.length + 1, transport.name, policy.process (Next.ofChain rest transport)⟩

@[simp] theorem Next.remaining_ofChain (policies : List (Policy σ)) (transport : Transport σ) :
    (Next.ofChain policies transport).remaining = policies.length := by
  cases policies <;> rfl

@[simp] theorem Next.transport_ofChain (policies : List (Policy σ)) (transport : Transport σ) :
    (Next.ofChain policies transport).transport = transport.name := by
  cases policies <;> rfl

/-- Policies in the order they run, and the transport at their end. -/
structure Pipeline (σ : Type) where
  /-- The policies. -/
  policies : List (Policy σ)
  /-- The transport. -/
  transport : Transport σ

namespace Pipeline

/-- Runs a call through every policy and the transport. -/
def run (p : Pipeline σ) : Exchange σ :=
  (Next.ofChain p.policies p.transport).run

/-- Sends a request, and gives back what became of it. -/
def send (p : Pipeline σ) (request : Request) (a : Ambient σ) :
    Outcome × Request × Ambient σ :=
  let (outcome, call) := p.run { a with request }
  (outcome, call.request, call.toAmbient)

/-- How many policies there are. -/
def size (p : Pipeline σ) : Nat :=
  p.policies.length

/-- Whether there is no policy. -/
def isEmpty (p : Pipeline σ) : Bool :=
  p.policies.isEmpty

/-- The names of the policies in order, and the transport's name last. -/
def names (p : Pipeline σ) : List String :=
  p.policies.map Policy.name ++ [p.transport.name]

/-- The description of a pipeline. -/
def describe (p : Pipeline σ) : String :=
  "Pipeline \x7b policies: " ++ Text.bracketed (p.names.map Text.quoted) ++ " \x7d"

end Pipeline

end HttpPipeline
