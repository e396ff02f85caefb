import HttpPipeline.Policy.Credential
import HttpPipeline.Transport.Http

/-! # Scripted peers

  A transport, an HTTP client and credentials that follow scripts. Each takes the next step
  of its script whenever it is asked; when its script is at its end, a transport or client
  answers at once with status 200 and a credential adds nothing.
-/

namespace HttpPipeline

/-! ## §1. Steps and scripts -/

/-- What a scripted transport does with one request. -/
structure Reply where
  /-- How long it takes. -/
  delay : Nat := 0
  /-- Whether it cancels the call when the time is over. -/
  cancels : Bool := false
  /-- Its outcome. -/
  outcome : Outcome := .ok { status := 200 }

/-- What a scripted credential does with one request: it adds headers, and then may fail. -/
structure Grant where
  /-- The headers it adds, in order. -/
  headers : List (String × String) := []
  /-- The failure it ends with, if it fails. -/
  failure : Option Error := none

/-- The steps that scripted peers have left. -/
structure Script where
  /-- The steps of the transport. -/
  replies : List Reply := []
  /-- The steps of the HTTP client. -/
  clientReplies : List ClientReply := []
  /-- The steps of each credential. -/
  grants : List (List Grant) := []

namespace Script

/-- The transport's next step, and the script after it. -/
def nextReply (s : Script) : Reply × Script :=
  match s.replies with
  | [] => ({}, s)
  | reply :: replies => (reply, { s with replies })

/-- The HTTP client's next step, and the script after it. -/
def nextClientReply (s : Script) : ClientReply × Script :=
  match s.clientReplies with
  | [] => ({ result := .ok { status := 200 } }, s)
  | reply :: clientReplies => (reply, { s with clientReplies })

/-- The next step of credential number `slot`, and the script after it. -/
def nextGrant (slot : Nat) (s : Script) : Grant × Script :=
  match s.grants[slot]? with
  | some (grant :: rest) => (grant, { s with grants := s.grants.set slot rest })
  | _ => ({}, s)

end Script

/-! ## §2. Peers that take steps -/

variable {σ : Type}

/-- The transport that takes its replies from the state of the peer, whatever the request and
the bounds of the call. -/
def Transport.scripted (next : σ → Reply × σ) : Transport σ where
  name := "transport"
  send request session :=
    let (reply, peer) := next session.peer
    let now := Clock.wake session.now reply.delay
    let context := if reply.cancels then session.context.cancelBy now else session.context
    { outcome := reply.outcome
      session := { now, context, peer }
      events := [⟨session.now, .sent request⟩] }

/-- The HTTP client that takes its replies from the state of the peer, whatever it is asked. It
waits before it replies, and no longer than a wait lasts. -/
def Client.scripted (next : σ → ClientReply × σ) : Client σ where
  request _ session :=
    let (reply, peer) := next session.peer
    ({ reply with delay := min reply.delay Clock.longestWait }, peer)

/-- The request after headers were added one after another, up to the first that cannot be
added. -/
def Request.appendHeaders (r : Request) : List (String × String) → Option Error × Request
  | [] => (none, r)
  | (name, value) :: headers =>
    match r.appendHeader name value with
    | .error e => (some e, r)
    | .ok r => r.appendHeaders headers

/-- The credential that takes its grants from the state of the peer. -/
def Credential.scripted (next : σ → Grant × σ) : Credential σ where
  authorize request session :=
    let (grant, peer) := next session.peer
    let (failed, request) := request.appendHeaders grant.headers
    { outcome := match failed <|> grant.failure with
        | some e => .error e
        | none => .ok ()
      request
      session := { session with peer }
      events := [⟨session.now, .authorizing⟩] }

end HttpPipeline
