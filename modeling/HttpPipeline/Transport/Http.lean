import HttpPipeline.Pipeline

/-! # HTTP transport

  Performs an exchange through an HTTP client, within the bounds of the call: a call that is
  cancelled or past its deadline does not reach the client, and one that ends while the
  client is at work is not waited for.
-/

namespace HttpPipeline

/-- What an HTTP client answers. -/
structure ClientReply where
  /-- How long the reply takes. -/
  delay : Nat := 0
  /-- The response, or why there is none. -/
  result : Except Http.Error Http.Response

/-- An HTTP client: given a call and the session, its reply and the state of the peer after
it. -/
structure Client (σ : Type) where
  /-- Sends a request. -/
  request : ClientCall → Session σ → ClientReply × σ

/-- What a client is asked to send for a request. Some methods have no body when the content
is empty. -/
def ClientCall.ofRequest (r : Request) : ClientCall where
  method := r.method
  url := r.url
  headers := r.headers
  body := if r.method.omitsEmptyBody && r.body.isEmpty then none else some r.body

/-- The transport that sends requests through a client. -/
def Transport.http {σ : Type} (client : Client σ) : Transport σ where
  name := "http"
  send request session :=
    match session.context.check session.now with
    | .error e => { outcome := .error e, session }
    | .ok () =>
      let call := ClientCall.ofRequest request
      let (reply, peer) := client.request call session
      let finish := session.context.finish session.now (session.now + reply.delay)
      let outcome := match finish with
        | .cancelled _ => .error .cancelled
        | .expired _ => .error .timeout
        | .replied _ => reply.result.mapError .transport
      { outcome
        session := { session with now := finish.instant, peer }
        events := [⟨session.now, .clientCalled call⟩] }

/-- The description of an HTTP transport, which shows nothing of the client. -/
def Transport.httpDescription : String := "HttpTransport \x7b .. \x7d"

end HttpPipeline
