import HttpPipeline.Proofs.Deliveries
import HttpPipeline.Proofs.Likeness
import HttpPipeline.Proofs.Secrecy.Redaction
import HttpPipeline.Script.Basic

/-! # Secrets and the log

  Two runs that are the same but for secrets, side by side. The requests and the responses are
  equal after redaction; the states of the peers are related in whatever way makes the peers
  answer so. The logged messages are functions of what is left after redaction, and so is every
  decision of the pipeline: hence the same messages are delivered at the same instants.
-/

namespace HttpPipeline

variable {σ : Type}

/-! ## §1. The same but for secrets -/

/-- Sessions that are the same but for secrets that their peers have. -/
structure Session.SameButSecrets (R : σ → σ → Prop) (s t : Session σ) : Prop where
  now : s.now = t.now
  context : s.context = t.context
  peer : R s.peer t.peer

/-- Calls that are the same but for secrets, and have led to the same log. -/
structure Call.SameButSecrets (R : σ → σ → Prop) (a b : Call σ) : Prop where
  session : a.toSession.SameButSecrets R b.toSession
  registry : a.registry = b.registry
  fault : a.fault = b.fault
  log : deliveries a.trace = deliveries b.trace
  request : a.request.redacted = b.request.redacted

/-- What two credentials did, the same but for secrets. -/
structure Authorized.SameButSecrets (R : σ → σ → Prop) (x y : Authorized σ) : Prop where
  outcome : x.outcome = y.outcome
  request : x.request.redacted = y.request.redacted
  session : x.session.SameButSecrets R y.session
  log : deliveries x.events = deliveries y.events

/-- What two transports did, the same but for secrets. -/
structure Sent.SameButSecrets (R : σ → σ → Prop) (x y : Sent σ) : Prop where
  outcome : x.outcome.map Http.Response.redacted = y.outcome.map Http.Response.redacted
  session : x.session.SameButSecrets R y.session
  log : deliveries x.events = deliveries y.events

/-- Credentials that do the same but for secrets. -/
def Credential.SameButSecrets (R : σ → σ → Prop) (c d : Credential σ) : Prop :=
  ∀ {q r : Request} {s t : Session σ}, q.redacted = r.redacted → s.SameButSecrets R t →
    (c.authorize q s).SameButSecrets R (d.authorize r t)

/-- Transports that answer the same but for secrets. -/
def Transport.SameButSecrets (R : σ → σ → Prop) (t u : Transport σ) : Prop :=
  ∀ {q r : Request} {s s' : Session σ}, q.redacted = r.redacted → s.SameButSecrets R s' →
    (t.send q s).SameButSecrets R (u.send r s')

/-- Credentials that are bearer tokens, or the same one, which shows no secret. -/
inductive Credential.DifferInToken (R : σ → σ → Prop) : Credential σ → Credential σ → Prop where
  /-- Two tokens. -/
  | bearer (token token' : Token) : DifferInToken R (bearer token) (bearer token')
  /-- The same credential. -/
  | same {c : Credential σ} (h : c.SameButSecrets R c) : DifferInToken R c c

/-! ## §2. Credentials and transports -/

/-- Headers that are equal after redaction can be added to requests that are, to both or to
neither. -/
theorem Request.alike_appendHeader {q r : Request} (h : q.redacted = r.redacted)
    (name : String) {v w : String}
    (hvalue : Log.redactedValue (Text.trim name) v = Log.redactedValue (Text.trim name) w) :
    Alike (fun q r => q.redacted = r.redacted) (q.appendHeader name v)
      (r.appendHeader name w) := by
  refine Alike.of_map_eq ?_
  rw [map_redacted_appendHeader, map_redacted_appendHeader, h, hvalue]

namespace Credential

/-- What a token adds to a request is redacted. -/
theorem sameButSecrets_bearer (R : σ → σ → Prop) (token token' : Token) :
    (bearer token).SameButSecrets R (bearer token') := by
  intro q r s t hrequest hsession
  have hredacted (value : String) :
      Log.redactedValue (Text.trim "Authorization") value = Log.redacted := by
    have hsensitive : Log.isSensitive (Text.trim "Authorization") = true := by decide
    simp only [Log.redactedValue, hsensitive, if_true]
  -- There is room for both tokens or for neither: room is counted in headers.
  have happend := Request.alike_appendHeader hrequest "Authorization"
    ((hredacted token.headerValue).trans (hredacted token'.headerValue).symm)
  unfold bearer
  dsimp only
  revert happend
  generalize q.appendHeader "Authorization" token.headerValue = x
  generalize r.appendHeader "Authorization" token'.headerValue = y
  intro happend
  cases happend with
  | error e => exact ⟨rfl, hrequest, hsession, rfl⟩
  | ok happended => exact ⟨rfl, happended, hsession, rfl⟩

theorem sameButSecrets_anonymous (R : σ → σ → Prop) :
    (anonymous : Credential σ).SameButSecrets R anonymous :=
  fun hrequest hsession => ⟨rfl, hrequest, hsession, rfl⟩

theorem DifferInToken.sameButSecrets {R : σ → σ → Prop} {c d : Credential σ}
    (h : c.DifferInToken R d) : c.SameButSecrets R d := by
  cases h with
  | bearer token token' => exact sameButSecrets_bearer R token token'
  | same h => exact h

end Credential

/-- Headers that are added to requests which are the same but for secrets leave them so, and
there is the same room for them. -/
theorem Request.appendHeaders_redacted {q r : Request} (h : q.redacted = r.redacted)
    (headers : List (String × String)) :
    (q.appendHeaders headers).1 = (r.appendHeaders headers).1 ∧
      (q.appendHeaders headers).2.redacted = (r.appendHeaders headers).2.redacted := by
  induction headers generalizing q r with
  | nil => exact ⟨rfl, h⟩
  | cons header headers ih =>
    have happend := Request.alike_appendHeader (v := header.2) h header.1 rfl
    unfold appendHeaders
    revert happend
    generalize q.appendHeader header.1 header.2 = x
    generalize r.appendHeader header.1 header.2 = y
    intro happend
    cases happend with
    | error e => exact ⟨rfl, h⟩
    | ok happended => exact ih happended

/-- Credentials that follow the same grants. -/
theorem Credential.sameButSecrets_scripted {R : σ → σ → Prop} {next : σ → Grant × σ}
    (hnext : ∀ x y, R x y → (next x).1 = (next y).1 ∧ R (next x).2 (next y).2) :
    (scripted next).SameButSecrets R (scripted next) := by
  intro q r s t hrequest hsession
  obtain ⟨hgrant, hpeer⟩ := hnext _ _ hsession.peer
  -- The grant is the same, so the same header is the first that there is no room for.
  obtain ⟨hfailed, happended⟩ := Request.appendHeaders_redacted hrequest (next t.peer).1.headers
  simp only [scripted, hgrant]
  exact ⟨by rw [hfailed], happended, ⟨hsession.now, hsession.context, hpeer⟩, rfl⟩

/-- A reply without its secrets. -/
def Reply.redacted (reply : Reply) : Reply :=
  { reply with outcome := reply.outcome.map Http.Response.redacted }

/-- A client's reply without its secrets. -/
def ClientReply.redacted (reply : ClientReply) : ClientReply :=
  { reply with result := reply.result.map Http.Response.redacted }

theorem map_mapError {ε δ α β : Type} (f : ε → δ) (g : α → β) (x : Except ε α) :
    (x.mapError f).map g = (x.map g).mapError f := by
  cases x <;> rfl

namespace Transport

/-- Transports that follow replies which are the same but for secrets. -/
theorem sameButSecrets_scripted {R : σ → σ → Prop} {next : σ → Reply × σ}
    (hnext : ∀ x y, R x y →
      (next x).1.redacted = (next y).1.redacted ∧ R (next x).2 (next y).2) :
    (scripted next).SameButSecrets R (scripted next) := by
  intro q r s s' _ hsession
  obtain ⟨hreply, hpeer⟩ := hnext _ _ hsession.peer
  obtain ⟨hdelay, hcancels, houtcome⟩ := Reply.mk.inj hreply
  refine ⟨houtcome, ⟨?_, ?_, hpeer⟩, rfl⟩
  · simp only [scripted, hdelay, hsession.now]
  · simp only [scripted, hdelay, hcancels, hsession.now, hsession.context]

/-- Clients that follow replies which are the same but for secrets. -/
theorem sameButSecrets_http {R : σ → σ → Prop} {next : σ → ClientReply × σ}
    (hnext : ∀ x y, R x y →
      (next x).1.redacted = (next y).1.redacted ∧ R (next x).2 (next y).2) :
    (http (Client.scripted next)).SameButSecrets R (http (Client.scripted next)) := by
  intro q r s s' _ hsession
  obtain ⟨hreply, hpeer⟩ := hnext _ _ hsession.peer
  obtain ⟨hdelay, hresult⟩ := ClientReply.mk.inj hreply
  have hfailed : ((next s.peer).1.result.mapError Error.transport).map Http.Response.redacted =
      ((next s'.peer).1.result.mapError Error.transport).map Http.Response.redacted := by
    rw [map_mapError, map_mapError, hresult]
  simp only [http, Client.scripted, hsession.now, hsession.context, hdelay]
  cases s'.context.check s'.now with
  | error e => exact ⟨rfl, hsession, rfl⟩
  | ok _ =>
    refine ⟨?_, ⟨rfl, rfl, hpeer⟩, rfl⟩
    dsimp only
    cases s'.context.finish s'.now (s'.now + min (next s'.peer).1.delay Clock.longestWait) with
    | cancelled instant => rfl
    | expired instant => rfl
    | replied instant => exact hfailed

end Transport

/-- Steps that are equal after redaction are both at their end, or both have a next one. -/
theorem steps_cases {α β : Type} {f : α → β} {xs ys : List α} (h : xs.map f = ys.map f) :
    (xs = [] ∧ ys = []) ∨ ∃ x y xs' ys', xs = x :: xs' ∧ ys = y :: ys' ∧ f x = f y ∧
      xs'.map f = ys'.map f := by
  cases xs with
  | nil => exact .inl ⟨rfl, List.map_eq_nil_iff.mp h.symm⟩
  | cons x xs' =>
    obtain ⟨y, ys', rfl, hstep, hrest⟩ := List.map_eq_cons_iff.mp h.symm
    exact .inr ⟨x, y, xs', ys', rfl, rfl, hstep.symm, hrest.symm⟩

/-- Scripts with the same steps but for secrets in responses. -/
structure Script.SameButSecrets (s t : Script) : Prop where
  replies : s.replies.map Reply.redacted = t.replies.map Reply.redacted
  clientReplies :
    s.clientReplies.map ClientReply.redacted = t.clientReplies.map ClientReply.redacted
  grants : s.grants = t.grants

namespace Script.SameButSecrets

theorem nextReply {s t : Script} (h : s.SameButSecrets t) :
    s.nextReply.1.redacted = t.nextReply.1.redacted ∧
      s.nextReply.2.SameButSecrets t.nextReply.2 := by
  unfold Script.nextReply
  rcases steps_cases h.replies with ⟨hs, ht⟩ | ⟨x, y, xs, ys, hs, ht, hstep, hrest⟩
  · rw [hs, ht]
    exact ⟨rfl, h⟩
  · rw [hs, ht]
    exact ⟨hstep, { h with replies := hrest }⟩

theorem nextClientReply {s t : Script} (h : s.SameButSecrets t) :
    s.nextClientReply.1.redacted = t.nextClientReply.1.redacted ∧
      s.nextClientReply.2.SameButSecrets t.nextClientReply.2 := by
  unfold Script.nextClientReply
  rcases steps_cases h.clientReplies with ⟨hs, ht⟩ | ⟨x, y, xs, ys, hs, ht, hstep, hrest⟩
  · rw [hs, ht]
    exact ⟨rfl, h⟩
  · rw [hs, ht]
    exact ⟨hstep, { h with clientReplies := hrest }⟩

theorem nextGrant {s t : Script} (h : s.SameButSecrets t) (slot : Nat) :
    (s.nextGrant slot).1 = (t.nextGrant slot).1 ∧
      (s.nextGrant slot).2.SameButSecrets (t.nextGrant slot).2 := by
  unfold Script.nextGrant
  rw [h.grants]
  split
  · exact ⟨rfl, { h with grants := rfl }⟩
  · exact ⟨rfl, h⟩

end Script.SameButSecrets

/-! ## §3. Runs -/

/-- Messages that are equal are delivered alike. -/
theorem Call.SameButSecrets.logText {R : σ → σ → Prop} {a b : Call σ}
    (h : a.SameButSecrets R b) (c : Log.Classification) (message : String) :
    (a.logText c message).SameButSecrets R (b.logText c message) where
  session := h.session
  registry := congrArg (fun r => (r.write c (Utf8.encode message)).registry) h.registry
  fault := by
    show (a.fault <|> _) = (b.fault <|> _)
    rw [h.fault, h.registry]
  log := by
    show deliveries (a.trace ++ _) = deliveries (b.trace ++ _)
    rw [deliveries_append, deliveries_append, h.log, h.registry, h.session.now]
  request := h.request

theorem Call.SameButSecrets.requestMessage {R : σ → σ → Prop} {a b : Call σ}
    (h : a.SameButSecrets R b) :
    Log.requestMessage a.request = Log.requestMessage b.request := by
  rw [← Log.requestMessage_redacted, h.request, Log.requestMessage_redacted]

/-- Calls and responses that are the same but for secrets. -/
def Likeness.butSecrets (R : σ → σ → Prop) : Likeness σ σ where
  calls := Call.SameButSecrets R
  responses x y := x.redacted = y.redacted
  now h := h.session.now
  context h := h.session.context
  status h := (Http.Response.mk.inj h).1
  retryAfter {x y} h := by
    rw [← retryAfter?_redacted x, ← retryAfter?_redacted y, h]
  wait h now := { h with session := ⟨rfl, h.session.context, h.session.peer⟩ }
  mark {a b} h := { h with
    request := by
      rw [Request.redacted_markHeaders, Request.redacted_markHeaders, h.request] }
  unmark {a b} h := { h with
    request := by
      rw [Request.redacted_dropMarkedHeaders, Request.redacted_dropMarkedHeaders, h.request] }
  header {a b} h name value := by
    have happend := Request.alike_appendHeader (v := value) h.request name rfl
    exact happend.imp fun q r hqr => { h with request := hqr }
  query {a b} h name value := by
    have hquery : Alike (fun q r => q.redacted = r.redacted)
        (a.request.setQueryParameter name value) (b.request.setQueryParameter name value) := by
      refine Alike.of_map_eq ?_
      rw [Request.map_redacted_setQueryParameter, Request.map_redacted_setQueryParameter,
        h.request]
    exact hquery.imp fun q r hqr => { h with request := hqr }
  logRetry h message := h.logText _ message
  logRequest {a b} h := by
    rw [h.requestMessage]
    exact h.logText _ _
  logResponse {a b x y} h hxy elapsed := by
    rw [← Log.responseMessage_redacted x, hxy, h.request, Log.responseMessage_redacted]
    exact h.logText _ _

theorem authorizes_butSecrets {R : σ → σ → Prop} {c d : Credential σ}
    (h : c.SameButSecrets R d) : (Likeness.butSecrets R).Authorizes c d := by
  intro a b hab
  have hauthorized := h hab.request hab.session
  refine ⟨hauthorized.outcome, ?_⟩
  refine ⟨hauthorized.session, hab.registry, hab.fault, ?_, hauthorized.request⟩
  show deliveries (a.trace ++ _) = deliveries (b.trace ++ _)
  rw [deliveries_append, deliveries_append, hab.log, hauthorized.log]

theorem links_butSecrets {R : σ → σ → Prop} {t u : Transport σ} (h : t.SameButSecrets R u) :
    (Likeness.butSecrets R).Links t.exchange u.exchange := by
  intro a b hab
  have hsent := h hab.request hab.session
  refine ⟨Alike.of_map_eq hsent.outcome, ?_⟩
  refine ⟨hsent.session, hab.registry, hab.fault, ?_, hab.request⟩
  show deliveries (a.trace ++ _) = deliveries (b.trace ++ _)
  rw [deliveries_append, deliveries_append, hab.log, hsent.log]

/-- **The log does not depend on secrets.** Two runs of pipelines of the same options, whose
credentials differ at most in a bearer token, on requests that are equal once the values of
their sensitive headers are left out, with transports that answer with responses that are equal
in the same way, deliver the same messages at the same instants, whatever the registry and the
context are. If a log callback breaks off in one run, it breaks off in the other. -/
theorem deliveries_independent_of_secrets {o : PipelineOptions} {component version : String}
    {R : σ → σ → Prop} {c d : Credential σ} {t u : Transport σ} {p q : Pipeline σ}
    (hp : o.assemble component version c t = .ok p)
    (hq : o.assemble component version d u = .ok q)
    (hcd : c.DifferInToken R d) (htu : t.SameButSecrets R u) {r s : Request}
    (hrs : r.redacted = s.redacted) {x y : σ} (hxy : R x y) (a : Ambient σ) :
    let first := (p.send r { a with peer := x }).2.2
    let second := (q.send s { a with peer := y }).2.2
    deliveries first.trace = deliveries second.trace ∧ first.fault = second.fault := by
  obtain ⟨agent, hagent, rfl⟩ := PipelineOptions.assemble_eq_ok hp
  obtain ⟨agent', hagent', rfl⟩ := PipelineOptions.assemble_eq_ok hq
  obtain rfl : agent = agent' := Except.ok.inj (hagent.symm.trans hagent')
  intro first second
  have hlinks := (Likeness.butSecrets R).links_run o agent
    (authorizes_butSecrets hcd.sameButSecrets) (links_butSecrets htu)
  have hstart : Call.SameButSecrets R
      { toAmbient := { a with peer := x }, request := r }
      { toAmbient := { a with peer := y }, request := s } :=
    ⟨⟨rfl, rfl, hxy⟩, rfl, rfl, rfl, hrs⟩
  obtain ⟨_, hfinal⟩ := hlinks _ _ hstart
  exact ⟨hfinal.log, hfinal.fault⟩

/-- With other tokens and other cookies the log of two attempts is the same. -/
theorem deliveries_independent_of_token_and_cookie :
    let t := Transport.scripted Script.nextReply
    let request (cookie : String) : Request := {
      method := .get, url := "/a", urlCapacity := 64
      headers := [("Cookie", cookie)], headerCapacity := 4 }
    let script (cookie : String) : Script := {
      replies := [{ outcome := .ok {
        status := 503, headers := ⟨[("set-cookie", cookie)]⟩ } }] }
    let start (cookie : String) : Ambient Script := {
      registry := { callback := some (.recording "log") }, peer := script cookie }
    ∃ p q, ({} : PipelineOptions).assemble "blobs" "1.0" (.bearer ⟨"alpha"⟩) t = .ok p ∧
      ({} : PipelineOptions).assemble "blobs" "1.0" (.bearer ⟨"beta"⟩) t = .ok q ∧
      (request "one").redacted = (request "two").redacted ∧
      (script "one").SameButSecrets (script "two") ∧
      deliveries (p.send (request "one") (start "one")).2.2.trace =
        deliveries (q.send (request "two") (start "two")).2.2.trace ∧
      (deliveries (p.send (request "one") (start "one")).2.2.trace).length = 5 := by
  intro t request script start
  have hp : ({} : PipelineOptions).assemble "blobs" "1.0" (.bearer ⟨"alpha"⟩) t = .ok
    (({} : PipelineOptions).pipeline "nimbus-rs-blobs/1.0" (.bearer ⟨"alpha"⟩) t) := rfl
  have hq : ({} : PipelineOptions).assemble "blobs" "1.0" (.bearer ⟨"beta"⟩) t = .ok
    (({} : PipelineOptions).pipeline "nimbus-rs-blobs/1.0" (.bearer ⟨"beta"⟩) t) := rfl
  have hscripted : t.SameButSecrets Script.SameButSecrets t :=
    Transport.sameButSecrets_scripted fun _ _ h => h.nextReply
  have hrequest : (request "one").redacted = (request "two").redacted := by decide
  have hscript : (script "one").SameButSecrets (script "two") := ⟨rfl, rfl, rfl⟩
  have hlog := (deliveries_independent_of_secrets hp hq (.bearer _ _) hscripted hrequest hscript
    (start "one")).1
  exact ⟨_, _, hp, hq, hrequest, hscript, hlog, by decide⟩

end HttpPipeline
