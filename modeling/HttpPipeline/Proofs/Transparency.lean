import HttpPipeline.Proofs.Deliveries
import HttpPipeline.Proofs.Likeness
import HttpPipeline.Script.Basic

/-! # The log does not touch the exchange

  Two runs of one pipeline under two log registries, side by side. Nothing is asked of the
  registries: either may have any filter or none, and any callback or none, one that reconfigures
  the registry from within included. What a callback can reach is the registry and what it
  delivers, so calls that agree on all the rest go on agreeing: the session with the peer in it,
  the request, and the trace without the log. That is a likeness of calls, and its laws hold for
  any two messages, so it does not even matter what is logged.
-/

namespace HttpPipeline

variable {σ : Type}

/-! ## §1. The same but for the log -/

/-- Calls that are the same but for their log registries and what these have delivered. -/
structure Call.SameButLog (a b : Call σ) : Prop where
  session : a.toSession = b.toSession
  request : a.request = b.request
  trace : unlogged a.trace = unlogged b.trace

namespace Call.SameButLog

variable {a b : Call σ}

theorem now (h : a.SameButLog b) : a.now = b.now :=
  congrArg Session.now h.session

theorem context (h : a.SameButLog b) : a.context = b.context :=
  congrArg Session.context h.session

/-- Whatever is logged on either side. -/
theorem logText (h : a.SameButLog b) (c d : Log.Classification) (message other : String) :
    (a.logText c message).SameButLog (b.logText d other) where
  session := h.session
  request := h.request
  trace := by
    rw [unlogged_logText, unlogged_logText]
    exact h.trace

/-- The same change to the request is possible in both calls or in neither. -/
theorem changed (h : a.SameButLog b) (change : Request → Except Error Request) :
    Alike (fun r s => Call.SameButLog { a with request := r } { b with request := s })
      (change a.request) (change b.request) := by
  rw [h.request]
  exact .refl (fun _ => ⟨h.session, rfl, h.trace⟩) _

end Call.SameButLog

/-- Calls that are the same but for the log, and responses that are the same. -/
def Likeness.butLog : Likeness σ σ where
  calls := Call.SameButLog
  responses x y := x = y
  now h := h.now
  context h := h.context
  status h := congrArg Http.Response.status h
  retryAfter h := congrArg retryAfter? h
  wait h now := { h with session := congrArg (fun s => { s with now }) h.session }
  mark h := { h with request := congrArg Request.markHeaders h.request }
  unmark h := { h with request := congrArg Request.dropMarkedHeaders h.request }
  header h name value := h.changed fun r => r.appendHeader name value
  query h name value := h.changed fun r => r.setQueryParameter name value
  logRetry h message := h.logText _ _ message message
  logRequest h := h.logText _ _ _ _
  logResponse h _ _ := h.logText _ _ _ _

/-! ## §2. The peers -/

/-- A credential sees the request and the session, and so not the log. -/
theorem authorizes_butLog (c : Credential σ) : (Likeness.butLog (σ := σ)).Authorizes c c := by
  intro a b hab
  have hauthorized : c.authorize a.request a.toSession = c.authorize b.request b.toSession := by
    rw [hab.request, hab.session]
  refine ⟨congrArg Authorized.outcome hauthorized, ?_⟩
  refine ⟨congrArg Authorized.session hauthorized, congrArg Authorized.request hauthorized, ?_⟩
  show unlogged (a.trace ++ _) = unlogged (b.trace ++ _)
  rw [unlogged_append, unlogged_append, hab.trace, hauthorized]

/-- A transport sees the request and the session, and so not the log. -/
theorem links_butLog (t : Transport σ) :
    (Likeness.butLog (σ := σ)).Links t.exchange t.exchange := by
  intro a b hab
  have hsent : t.send a.request a.toSession = t.send b.request b.toSession := by
    rw [hab.request, hab.session]
  refine ⟨?_, ?_⟩
  · show Alike _ (t.send a.request a.toSession).outcome (t.send b.request b.toSession).outcome
    rw [hsent]
    exact .refl (fun _ => rfl) _
  · refine ⟨congrArg Sent.session hsent, hab.request, ?_⟩
    show unlogged (a.trace ++ _) = unlogged (b.trace ++ _)
    rw [unlogged_append, unlogged_append, hab.trace, hsent]

/-! ## §3. Runs -/

/-- When the transport is handed which request in an attempt, unless the credential fails. -/
def Attempt.sending? (c : Credential σ) (x : Attempt σ) : Option (Nat × Request) :=
  match c.handed x.before with
  | .error _ => none
  | .ok handed => some (handed.now, handed.request)

/-- Attempts that begin the same but for the log hand the transport the same request at the same
instant. -/
theorem sending?_eq_of_sameButLog (c : Credential σ) {x y : Attempt σ}
    (h : x.before.SameButLog y.before) : x.sending? c = y.sending? c := by
  have hhanded := Likeness.butLog.alike_handed (authorizes_butLog c) h
  unfold Attempt.sending?
  revert hhanded
  generalize c.handed x.before = u
  generalize c.handed y.before = v
  intro hhanded
  cases hhanded with
  | error e => rfl
  | ok hcalls =>
    have hnow := hcalls.now
    have hrequest := hcalls.request
    simp only [hnow, hrequest]

/-- The attempts of two runs under any two registries are the same but for the log, one by
one. -/
theorem attempts_sameButLog (o : PipelineOptions) (agent : String) (c : Credential σ)
    (t : Transport σ) {a b : Call σ} (hab : a.SameButLog b) :
    List.Forall₂ Likeness.butLog.Attempts (o.attempts agent c t a) (o.attempts agent c t b) :=
  Likeness.butLog.alike_attempts o agent (authorizes_butLog c) (links_butLog t) hab

/-- **Logging is transparent.** Two runs of one pipeline on one request that differ in nothing but
the log registry, whatever the two registries do, have the same outcome and leave the request the
same. They also leave the session the same, which is the clock, the context and all that the peers
have come to, and the same trace but for the log. They make the same number of attempts, and in
each of these the transport is handed the same request at the same instant. -/
theorem exchange_independent_of_registry {o : PipelineOptions} {component version : String}
    {c : Credential σ} {t : Transport σ} {p : Pipeline σ}
    (hp : o.assemble component version c t = .ok p) (r : Request) (a : Ambient σ)
    (x y : Log.Registry) :
    let under (registry : Log.Registry) : Ambient σ := { a with registry }
    let first := p.send r (under x)
    let second := p.send r (under y)
    first.1 = second.1 ∧ first.2.1 = second.2.1 ∧
      first.2.2.toSession = second.2.2.toSession ∧
      unlogged first.2.2.trace = unlogged second.2.2.trace ∧
      ∃ agent, o.telemetry.userAgent component version = .ok agent ∧
        let attempts (registry : Log.Registry) :=
          o.attempts agent c t { under registry with request := r }
        (attempts x).length = (attempts y).length ∧
          (attempts x).map (Attempt.sending? c) = (attempts y).map (Attempt.sending? c) := by
  obtain ⟨agent, hagent, rfl⟩ := PipelineOptions.assemble_eq_ok hp
  intro under first second
  have hstart : Call.SameButLog { under x with request := r } { under y with request := r } :=
    ⟨rfl, rfl, rfl⟩
  obtain ⟨houtcome, hfinal⟩ := Likeness.butLog.links_run o agent (authorizes_butLog c)
    (links_butLog t) _ _ hstart
  have hattempts := attempts_sameButLog o agent c t hstart
  refine ⟨houtcome.eq, hfinal.request, hfinal.session, hfinal.trace, agent,
    PipelineOptions.admitted_eq_ok hagent, hattempts.length_eq, ?_⟩
  have hsendings := hattempts.imp fun _ _ h => sending?_eq_of_sameButLog c h.before
  rw [← List.forall₂_eq_eq_eq, List.forall₂_map_left_iff, List.forall₂_map_right_iff]
  exact hsendings

/-- A callback that shuts the log after the first message changes nothing but the log of two
attempts. -/
theorem exchange_independent_of_registry_shut :
    let o : PipelineOptions := {}
    let c : Credential Script := Credential.anonymous
    let t := Transport.scripted Script.nextReply
    let r : Request := { method := .get, url := "/a", urlCapacity := 64, headerCapacity := 4 }
    let shutting : Log.Registry := {
      callback := some (.labelled "log" fun _ _ => .setFilter (some ⟨[]⟩) (.uninstall .done)) }
    let start : Ambient Script := {
      peer := { replies := [{ delay := 7, outcome := .ok { status := 503 } }] } }
    let first := fun (p : Pipeline Script) => p.send r { start with registry := shutting }
    let second := fun (p : Pipeline Script) => p.send r { start with registry := {} }
    let attempts (registry : Log.Registry) :=
      o.attempts "nimbus-rs-blobs/1.0" c t { start with registry, request := r }
    ∃ p, o.assemble "blobs" "1.0" c t = .ok p ∧
      (first p).1 = (second p).1 ∧ (first p).2.2.toSession = (second p).2.2.toSession ∧
      (attempts shutting).map (Attempt.sending? c) = (attempts {}).map (Attempt.sending? c) ∧
      (attempts {}).length = 2 ∧
      (deliveries (first p).2.2.trace).length = 1 ∧ deliveries (second p).2.2.trace = [] := by
  intro o c t r shutting start first second attempts
  have hp : o.assemble "blobs" "1.0" c t = .ok (o.pipeline "nimbus-rs-blobs/1.0" c t) := rfl
  obtain ⟨houtcome, _, hsession, _, agent, hagent, _, hsendings⟩ :=
    exchange_independent_of_registry hp r start shutting {}
  obtain rfl : "nimbus-rs-blobs/1.0" = agent := Except.ok.inj hagent
  exact ⟨_, hp, houtcome, hsession, hsendings, by decide, by decide, by decide⟩

end HttpPipeline
