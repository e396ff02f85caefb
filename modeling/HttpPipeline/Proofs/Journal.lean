import HttpPipeline.Policy.Credential

/-! # Journals

  What a policy does to the rest of its chain cannot be read off its result. It can be read off a
  journal that the rest of the chain keeps: the peer's state is passed along by every policy and
  looked into by none, so a journal can travel with it. A journaled exchange does what the
  exchange does and notes each of its runs; journaled peers of a pipeline note what they are
  handed. A chain with journaled links is a chain like any other, so what is proved of its journal
  is a statement about the policies themselves.
-/

namespace HttpPipeline

variable {σ τ ε : Type}

/-! ## §1. Peers with a journal -/

/-- The state of a peer, and its journal, the earliest entry first. -/
structure Journaled (σ ε : Type) where
  peer : σ
  entries : List ε := []

/-- The session with another peer. -/
def Session.withPeer (s : Session σ) (peer : τ) : Session τ :=
  { now := s.now, context := s.context, peer }

/-- The session without the journal. -/
def Session.plain (s : Session (Journaled σ ε)) : Session σ :=
  s.withPeer s.peer.peer

/-- The ambient state with another peer. -/
def Ambient.withPeer (a : Ambient σ) (peer : τ) : Ambient τ :=
  { toSession := a.toSession.withPeer peer
    registry := a.registry
    trace := a.trace
    fault := a.fault }

/-- The ambient state with a journal. -/
def Ambient.journaled (a : Ambient σ) (entries : List ε) : Ambient (Journaled σ ε) :=
  a.withPeer ⟨a.peer, entries⟩

/-- The call with a journal. -/
def Call.journaled (call : Call σ) (entries : List ε) : Call (Journaled σ ε) :=
  { toAmbient := call.toAmbient.journaled entries, request := call.request }

/-- The call without the journal. -/
def Call.plain (call : Call (Journaled σ ε)) : Call σ :=
  { toAmbient := call.toAmbient.withPeer call.peer.peer, request := call.request }

@[simp] theorem Call.plain_journaled (call : Call σ) (entries : List ε) :
    (call.journaled entries).plain = call := rfl
@[simp] theorem Call.request_journaled (call : Call σ) (entries : List ε) :
    (call.journaled entries).request = call.request := rfl
@[simp] theorem Call.entries_journaled (call : Call σ) (entries : List ε) :
    (call.journaled entries).peer.entries = entries := rfl

/-! ## §2. Exchanges -/

instance : DecidableEq Outcome
  | .ok x, .ok y => decidable_of_iff (x = y) (by simp)
  | .error x, .error y => decidable_of_iff (x = y) (by simp)
  | .ok _, .error _ => isFalse (by simp)
  | .error _, .ok _ => isFalse (by simp)

/-- One run of the rest of a chain: the call it was handed, and what it gave back. -/
structure Attempt (σ : Type) where
  before : Call σ
  outcome : Outcome
  after : Call σ

/-- The run of the rest of a chain on a call. -/
def Attempt.of (rest : Exchange σ) (call : Call σ) : Attempt σ :=
  ⟨call, (rest call).1, (rest call).2⟩

/-- The rest of a chain, noting each of its runs. -/
def Exchange.journaled (rest : Exchange σ) : Exchange (Journaled σ (Attempt σ)) := fun call =>
  let attempt := Attempt.of rest call.plain
  (attempt.outcome, attempt.after.journaled (call.peer.entries ++ [attempt]))

/-- Whether an exchange with a journal does the same as one without, but for the journal. -/
def Exchange.Erases (journaled : Exchange (Journaled σ ε)) (rest : Exchange σ) : Prop :=
  ∀ call entries, ∃ entries',
    journaled (call.journaled entries) = ((rest call).1, (rest call).2.journaled entries')

/-- Whether it adds these entries to the journal, and does the same otherwise. -/
def Exchange.Writes (journaled : Exchange (Journaled σ ε)) (rest : Exchange σ)
    (written : Call σ → List ε) : Prop :=
  ∀ call entries, journaled (call.journaled entries) =
    ((rest call).1, (rest call).2.journaled (entries ++ written call))

theorem Exchange.Writes.erases {journaled : Exchange (Journaled σ ε)} {rest : Exchange σ}
    {written : Call σ → List ε} (h : journaled.Writes rest written) : journaled.Erases rest :=
  fun call entries => ⟨_, h call entries⟩

/-- The rest of a chain, noting each of its runs. -/
def Next.journaled (next : Next σ) : Next (Journaled σ (Attempt σ)) where
  remaining := next.remaining
  transport := next.transport
  run := Exchange.journaled next.run

/-! ## §3. Credentials and transports -/

/-- What the peers of a pipeline are handed. -/
inductive Handover where
  /-- The credential was handed a request, and left it as the second one. -/
  | authorized (before after : Request)
  /-- The transport was handed a request. -/
  | sent (request : Request)
  deriving DecidableEq, Repr

/-- The credential, noting what it is handed and what it makes of it. -/
def Credential.journaled (c : Credential σ) : Credential (Journaled σ Handover) where
  authorize request session :=
    let authorized := c.authorize request session.plain
    { outcome := authorized.outcome
      request := authorized.request
      session := authorized.session.withPeer
        ⟨authorized.session.peer, session.peer.entries ++ [.authorized request authorized.request]⟩
      events := authorized.events }

/-- The transport, noting what it is handed. -/
def Transport.journaled (t : Transport σ) : Transport (Journaled σ Handover) where
  name := t.name
  send request session :=
    let sent := t.send request session.plain
    { outcome := sent.outcome
      session := sent.session.withPeer
        ⟨sent.session.peer, session.peer.entries ++ [.sent request]⟩
      events := sent.events }

end HttpPipeline
