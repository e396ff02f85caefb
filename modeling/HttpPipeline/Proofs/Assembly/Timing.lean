import HttpPipeline.Proofs.Assembly
import HttpPipeline.Proofs.Retry.Reference
import HttpPipeline.Script.Basic

/-! # A run within its bounds

  Two links of an assembled pipeline take time: the transport, which is held by the context, and
  the wait between two attempts, which is not begun unless it ends before the deadline. What a
  link may do to the clock and to the trace under the context is one relation between the state
  before and the state after. It is reflexive and transitive, each link keeps to it, and so does
  every run.
-/

namespace HttpPipeline

variable {σ : Type}

/-! ## §1. Keeping to the context -/

/-- Whether a state comes from another under the context of that one, without a call of the
client that the context does not allow. -/
structure Ambient.Reaches (a b : Ambient σ) : Prop where
  /-- The context stays. -/
  context : b.context = a.context
  /-- The clock stays within the bounds. -/
  now : a.context.Admits a.now b.now
  /-- Events are added within the bounds, and the client is called only if work may begin. -/
  trace : ∃ events, b.trace = a.trace ++ events ∧ ∀ e ∈ events,
    a.context.Admits a.now e.instant ∧
      ∀ call, e.occurrence = .clientCalled call → a.context.check e.instant = .ok ()

theorem Ambient.Reaches.refl (a : Ambient σ) : a.Reaches a where
  context := rfl
  now := .refl _ _
  trace := ⟨[], by simp, by simp⟩

theorem Ambient.Reaches.trans {a b c : Ambient σ} (hab : a.Reaches b) (hbc : b.Reaches c) :
    a.Reaches c where
  context := hbc.context.trans hab.context
  now := hab.now.trans (hab.context ▸ hbc.now)
  trace := by
    obtain ⟨first, htrace, hfirst⟩ := hab.trace
    obtain ⟨second, htrace', hsecond⟩ := hbc.trace
    refine ⟨first ++ second, by rw [htrace', htrace, List.append_assoc], fun e he => ?_⟩
    rcases List.mem_append.mp he with he | he
    · exact hfirst e he
    · obtain ⟨hadmits, hcalled⟩ := hsecond e he
      rw [hab.context] at hadmits hcalled
      exact ⟨hab.now.trans hadmits, hcalled⟩

/-- Logging takes no time and calls no client. -/
theorem reaches_logText (call : Call σ) (c : Log.Classification) (message : String) :
    call.toAmbient.Reaches (call.logText c message).toAmbient where
  context := rfl
  now := .refl _ _
  trace := by
    refine ⟨_, rfl, fun e he => ?_⟩
    obtain ⟨delivery, _, rfl⟩ := List.mem_map.mp he
    exact ⟨.refl _ _, fun _ hcalled => by cases hcalled⟩

theorem reaches_reported (started : Nat) (result : Outcome × Call σ) :
    result.2.toAmbient.Reaches (reported started result).2.toAmbient := by
  unfold reported
  split
  · exact .refl _
  · exact reaches_logText _ _ _

/-! ## §2. The credential and the transport -/

/-- A credential that takes no time, leaves the context alone and calls no client. -/
structure Credential.Prompt (c : Credential σ) : Prop where
  /-- The clock stays. -/
  now : ∀ r s, (c.authorize r s).session.now = s.now
  /-- The context stays. -/
  context : ∀ r s, (c.authorize r s).session.context = s.context
  /-- Nothing happens meanwhile, except that it is asked. -/
  events : ∀ r s, ∀ e ∈ (c.authorize r s).events, e = ⟨s.now, .authorizing⟩

namespace Credential

theorem prompt_anonymous : (anonymous : Credential σ).Prompt where
  now _ _ := rfl
  context _ _ := rfl
  events _ _ _ he := by simp [anonymous] at he

theorem prompt_bearer (token : Token) : (bearer token : Credential σ).Prompt where
  now r s := by
    unfold bearer
    dsimp only
    split <;> rfl
  context r s := by
    unfold bearer
    dsimp only
    split <;> rfl
  events r s e he := by
    unfold bearer at he
    dsimp only at he
    split at he <;> simp at he

theorem prompt_scripted (next : σ → Grant × σ) : (scripted next).Prompt where
  now _ _ := rfl
  context _ _ := rfl
  events _ _ _ he := List.mem_singleton.mp he

end Credential

theorem reaches_applied {c : Credential σ} (hc : c.Prompt) (call : Call σ) :
    call.toAmbient.Reaches (c.applied call).toAmbient where
  context := hc.context call.request call.toSession
  now := by
    have hnow : (c.applied call).now = call.now := hc.now call.request call.toSession
    rw [hnow]
    exact .refl _ _
  trace := by
    refine ⟨_, rfl, fun e he => ?_⟩
    obtain rfl := hc.events call.request call.toSession e he
    exact ⟨.refl _ _, fun _ hcalled => by cases hcalled⟩

theorem reaches_handed {c : Credential σ} (hc : c.Prompt) {call handed : Call σ}
    (h : c.handed call = .ok handed) : call.toAmbient.Reaches handed.toAmbient := by
  obtain rfl := Credential.handed_eq_ok h
  exact (reaches_applied hc call).trans (reaches_logText _ _ _)

/-- How the exchange of a call that may begin ends. -/
def Context.Finish.outcome (finish : Context.Finish) (reply : ClientReply) : Outcome :=
  match finish with
  | .cancelled _ => .error .cancelled
  | .expired _ => .error .timeout
  | .replied _ => reply.result.mapError .transport

/-- An exchange that begins fails because it is not waited for, or as the client does. -/
theorem Context.Finish.outcome_eq_error {finish : Context.Finish} {reply : ClientReply}
    {e : Error} (h : finish.outcome reply = .error e) :
    e = .cancelled ∨ e = .timeout ∨ ∃ cause, e = .transport cause := by
  cases finish with
  | cancelled instant => exact .inl (Except.error.inj h).symm
  | expired instant => exact .inr (.inl (Except.error.inj h).symm)
  | replied instant =>
    have hresult : reply.result.mapError Error.transport = .error e := h
    cases hreply : reply.result with
    | error cause =>
      rw [hreply] at hresult
      exact .inr (.inr ⟨cause, (Except.error.inj hresult).symm⟩)
    | ok response =>
      rw [hreply] at hresult
      cases hresult

/-- Only the deadline makes an exchange fail with this failure: those of the client are of
another kind. -/
theorem Context.Finish.outcome_eq_timeout {finish : Context.Finish} {reply : ClientReply}
    (h : finish.outcome reply = .error .timeout) : ∃ instant, finish = .expired instant := by
  cases finish with
  | cancelled instant => cases h
  | expired instant => exact ⟨instant, rfl⟩
  | replied instant =>
    have hresult : reply.result.mapError Error.transport = .error .timeout := h
    -- The failures of a client are wrapped, so none of them is a timeout of the context.
    cases hreply : reply.result with
    | error e =>
      rw [hreply] at hresult
      have hcause : Error.transport e = .timeout := Except.error.inj hresult
      cases hcause
    | ok response =>
      rw [hreply] at hresult
      cases hresult

/-- **Everything an exchange through a client can be.** It does not begin, or the client is
called at once and the exchange ends as the context has it. -/
theorem http_exchange_cases (client : Client σ) (call : Call σ) :
    (∃ e, call.context.check call.now = .error e ∧
      (Transport.http client).exchange call = (.error e, call)) ∨
    (call.context.check call.now = .ok () ∧
      let asked := ClientCall.ofRequest call.request
      let reply := (client.request asked call.toSession).1
      let finish := call.context.finish call.now (call.now + reply.delay)
      (Transport.http client).exchange call = (finish.outcome reply, { call with
        now := finish.instant
        peer := (client.request asked call.toSession).2
        trace := call.trace ++ [⟨call.now, .clientCalled asked⟩] })) := by
  simp only [Transport.exchange, Transport.http]
  cases call.context.check call.now with
  | error e => exact .inl ⟨e, rfl, by simp⟩
  | ok _ => exact .inr ⟨rfl, rfl⟩

/-- An exchange through a client fails because of the bounds of the call, or with a failure of the
client. -/
theorem http_exchange_eq_error {client : Client σ} {call : Call σ} {e : Error}
    (h : ((Transport.http client).exchange call).1 = .error e) :
    e = .cancelled ∨ e = .timeout ∨ ∃ cause, e = .transport cause := by
  rcases http_exchange_cases client call with ⟨e', hcheck, heq⟩ | ⟨_, heq⟩
  · rw [heq] at h
    obtain rfl : e' = e := Except.error.inj h
    exact (Context.check_eq_error hcheck).imp_right .inl
  · rw [heq] at h
    exact Context.Finish.outcome_eq_error h

/-- An exchange through a client keeps to the context. -/
theorem reaches_exchange (client : Client σ) (call : Call σ) :
    call.toAmbient.Reaches ((Transport.http client).exchange call).2.toAmbient := by
  rcases http_exchange_cases client call with ⟨e, _, heq⟩ | ⟨hok, heq⟩
  · rw [heq]
    exact .refl _
  · rw [heq]
    refine ⟨rfl, Context.admits_finish hok, [_], rfl, fun e he => ?_⟩
    obtain rfl := List.mem_singleton.mp he
    exact ⟨.refl _ _, fun _ _ => hok⟩

/-- An exchange that was not begun or not waited for, because of the deadline, ends when the
deadline has passed. -/
theorem deadline_le_of_timeout {client : Client σ} {call : Call σ}
    (h : ((Transport.http client).exchange call).1 = .error .timeout) :
    let after := ((Transport.http client).exchange call).2
    ∃ d, after.context.deadline = some d ∧ d ≤ (after.now : Int) := by
  rcases http_exchange_cases client call with ⟨e, he, heq⟩ | ⟨_, heq⟩
  · rw [heq] at h ⊢
    cases h
    exact Context.check_eq_timeout he
  · rw [heq] at h ⊢
    obtain ⟨instant, hfinish⟩ := Context.Finish.outcome_eq_timeout h
    simp only [hfinish]
    exact Context.finish_eq_expired hfinish

/-! ## §3. The attempts -/

/-- An attempt keeps to the context. -/
theorem reaches_attempt {c : Credential σ} (hc : c.Prompt) (client : Client σ) (call : Call σ) :
    call.toAmbient.Reaches
      ((Next.attempting c (Transport.http client)).run call).2.toAmbient := by
  rw [run_attempting]
  cases hhanded : c.handed call with
  | error e => exact reaches_applied hc call
  | ok handed =>
    have hexchange := reaches_exchange client handed
    exact ((reaches_handed hc hhanded).trans hexchange).trans (reaches_reported _ _)

/-- A wait that is announced keeps to the context, if it is not to reach the deadline. -/
theorem reaches_waited (o : RetryOptions) (i : Nat) (outcome : Outcome) (after : Call σ)
    (hends : after.endsWithin (o.waitAfter i outcome) = false) {instant : Nat}
    (hwait : after.context.wait after.now (o.waitAfter i outcome) = .over instant ∨
      after.context.wait after.now (o.waitAfter i outcome) = .cancelled instant) :
    after.toAmbient.Reaches { (o.announced i outcome after).toAmbient with now := instant } where
  context := rfl
  now := by
    have hexpires : after.context.expiresWithin after.now (o.waitAfter i outcome) = false := by
      simp only [Session.endsWithin, Bool.or_eq_false_iff] at hends
      exact hends.2
    exact Context.admits_wait hexpires hwait
  trace := (reaches_logText after _ _).trace

/-- Whatever the verdict on an attempt is, it keeps to the context. -/
theorem reaches_verdict (o : RetryOptions) (i : Nat) (outcome : Outcome) (after next : Call σ)
    (hv : o.verdict i outcome after = .leave next ∨ o.verdict i outcome after = .again next) :
    after.toAmbient.Reaches next.toAmbient := by
  rcases o.verdict_cases i outcome after with
    ⟨heq, _⟩ | ⟨_, hends, instant, ⟨hwait, heq⟩ | ⟨hwait, heq⟩⟩
  · rw [heq] at hv
    rcases hv with hv | hv <;> cases hv
    exact .refl _
  · rw [heq] at hv
    rcases hv with hv | hv <;> cases hv
    exact reaches_waited o i outcome after hends (.inr hwait)
  · rw [heq] at hv
    rcases hv with hv | hv <;> cases hv
    exact reaches_waited o i outcome after hends (.inl hwait)

/-- All attempts of a retry policy together keep to the context. -/
theorem reaches_attempts (o : RetryOptions) {c : Credential σ} (hc : c.Prompt)
    (client : Client σ) (left i : Nat) (call : Call σ) :
    call.toAmbient.Reaches
      (o.attemptFrom (Next.attempting c (Transport.http client)).run left i call).2.toAmbient := by
  refine o.attemptFrom_induction (Next.attempting c (Transport.http client)).run
    (motive := fun _ call result => call.toAmbient.Reaches result.2.toAmbient)
    ?last ?leave ?again left i call
  case last => exact fun _ call => reaches_attempt hc client call
  case leave =>
    intro i call final hv
    exact (reaches_attempt hc client call).trans (reaches_verdict o i _ _ final (.inl hv))
  case again =>
    intro i call next result hv ih
    have hnext := (reaches_attempt hc client call).trans (reaches_verdict o i _ _ next (.inr hv))
    exact hnext.trans ih

/-- After the failures that the context leads to, a retry policy leaves at once: it is cancelled,
or the deadline comes within every wait. -/
theorem verdict_of_bounded {o : RetryOptions} {client : Client σ} {call : Call σ} {e : Error}
    (he : e = .timeout ∨ e = .cancelled)
    (h : ((Transport.http client).exchange call).1 = .error e) (i : Nat) :
    let after := ((Transport.http client).exchange call).2
    o.verdict i (.error e) after = .leave after := by
  intro after
  unfold RetryOptions.verdict
  rcases he with rfl | rfl
  · -- A timeout is retryable, but the deadline that caused it lets no wait begin.
    obtain ⟨d, hd, hle⟩ := deadline_le_of_timeout h
    have hends : after.endsWithin (o.waitAfter i (.error .timeout)) = true := by
      apply eq_true_of_ne_false
      intro hends
      have hlate := (RetryOptions.endsWithin_eq_false_iff.mp hends).2 d hd
      have hle' : d ≤ (after.now : Int) := hle
      omega
    rw [if_pos (show o.shouldRetry (.error .timeout) = true from rfl), if_pos hends]
  · rw [if_neg (show ¬ o.shouldRetry (.error .cancelled) = true from Bool.false_ne_true)]

/-! ## §4. Runs -/

/-- A run keeps to the context. -/
theorem reaches_run (o : PipelineOptions) (agent : String) {c : Credential σ} (hc : c.Prompt)
    (client : Client σ) (call : Call σ) :
    call.toAmbient.Reaches
      ((o.pipeline agent c (Transport.http client)).run call).2.toAmbient := by
  cases hbase : o.prepare agent call.request with
  | error e =>
    obtain ⟨left, hrun⟩ := PipelineOptions.run_of_prepare_eq_error (c := c)
      (t := Transport.http client) hbase
    rw [hrun]
    exact .refl _
  | ok base =>
    rw [PipelineOptions.run_of_prepare_eq_ok hbase]
    exact reaches_attempts o.retry hc client (o.retry.maxAttempts - 1) 1
      { call with request := base.markHeaders }

/-- An attempt whose exchange fails because of the context is the last one, and the run ends as
the exchange did. -/
theorem last_of_bounded (o : PipelineOptions) (agent : String) (c : Credential σ)
    (client : Client σ) (call : Call σ) {x : Attempt σ}
    (hx : x ∈ o.attempts agent c (Transport.http client) call) {handed : Call σ}
    (hhanded : c.handed x.before = .ok handed) {e : Error} (he : e = .timeout ∨ e = .cancelled)
    (hexchange : ((Transport.http client).exchange handed).1 = .error e) :
    (o.attempts agent c (Transport.http client) call).getLast? = some x ∧
      (o.pipeline agent c (Transport.http client)).run call =
        (Transport.http client).exchange handed := by
  have hof := PipelineOptions.eq_of_mem_attempts hx
  have hrest : (Next.attempting c (Transport.http client)).run x.before =
      (Transport.http client).exchange handed := by
    rw [run_attempting, hhanded]
    simp only [reported, hexchange]
    exact Prod.ext hexchange.symm rfl
  cases hbase : o.prepare agent call.request with
  | error e => simp [PipelineOptions.attempts, hbase] at hx
  | ok base =>
    rw [PipelineOptions.run_of_prepare_eq_ok hbase]
    rw [PipelineOptions.attempts_of_prepare_eq_ok hbase] at hx ⊢
    -- The policy leaves after this attempt, whatever its number.
    have hleave : ∀ n, o.retry.verdict n x.outcome x.after = .leave x.after := by
      intro n
      rw [hof, Attempt.of, hrest]
      simp only [hexchange]
      exact verdict_of_bounded he hexchange n
    obtain ⟨hlast, hrun⟩ := RetryOptions.last_of_leaves hx hleave
    refine ⟨hlast, hrun.trans ?_⟩
    rw [hof, Attempt.of, hrest]

/-- **A run keeps to its context**, whatever the client answers. The client is never called at
or after the deadline, nor once the call is cancelled. An exchange that fails because of the
deadline or of the cancellation ends the run: its attempt is the last one, and the run ends as the
exchange did, without another wait or event. And no event, nor the end of the run, is later than
a deadline or a cancellation that is not before the start. -/
theorem runs_keep_to_context {o : PipelineOptions} {component version : String}
    {c : Credential σ} {client : Client σ} {p : Pipeline σ}
    (hp : o.assemble component version c (Transport.http client) = .ok p) (hc : c.Prompt)
    (call : Call σ) :
    let t := Transport.http client
    let final := (p.run call).2
    ∃ agent events, o.telemetry.userAgent component version = .ok agent ∧
      final.trace = call.trace ++ events ∧
      (∀ e ∈ events, ∀ asked, e.occurrence = .clientCalled asked →
        (∀ d, call.context.deadline = some d → (e.instant : Int) < d) ∧
          ∀ k, call.context.cancelAt = some k → e.instant < k) ∧
      (∀ x ∈ o.attempts agent c t call, ∀ handed e, c.handed x.before = .ok handed →
        (t.exchange handed).1 = .error e → (e = .timeout ∨ e = .cancelled) →
          (o.attempts agent c t call).getLast? = some x ∧ p.run call = t.exchange handed) ∧
      (∀ d, call.context.deadline = some d → (call.now : Int) ≤ d →
        (∀ e ∈ events, (e.instant : Int) ≤ d) ∧ (final.now : Int) ≤ d) ∧
      ∀ k, call.context.cancelAt = some k → call.now ≤ k →
        (∀ e ∈ events, e.instant ≤ k) ∧ final.now ≤ k := by
  obtain ⟨agent, hagent, rfl⟩ := PipelineOptions.assemble_eq_ok hp
  intro t final
  have hreaches := reaches_run o agent hc client call
  obtain ⟨events, htrace, hevents⟩ := hreaches.trace
  refine ⟨agent, events, PipelineOptions.admitted_eq_ok hagent, htrace, ?_, ?_, ?_, ?_⟩
  · intro e he asked hcalled
    exact Context.check_eq_ok_iff.mp ((hevents e he).2 asked hcalled)
  · intro x hx handed e hhanded hexchange he
    exact last_of_bounded o agent c client call hx hhanded he hexchange
  · intro d hd hstart
    refine ⟨fun e he => (hevents e he).1.deadline d hd hstart, hreaches.now.deadline d hd hstart⟩
  · intro k hk hstart
    refine ⟨fun e he => (hevents e he).1.cancelAt k hk hstart, hreaches.now.cancelAt k hk hstart⟩

/-- A client that fails by itself is called again; the second call is not over at the deadline,
and the run ends there. -/
theorem runs_keep_to_context_after_client_timeout :
    let o : PipelineOptions := {}
    let c : Credential Script := Credential.anonymous
    let t := Transport.http (Client.scripted Script.nextClientReply)
    let call : Call Script := {
      context := { deadline := some 5000 }
      peer := { clientReplies := [{ delay := 10, result := .error .timeout },
        { delay := 9000, result := .ok { status := 200 } }] }
      request := { method := .get, url := "/a", urlCapacity := 64, headerCapacity := 4 } }
    ∃ p first second handed, o.assemble "blobs" "1.0" c t = .ok p ∧ c.Prompt ∧
      o.attempts "nimbus-rs-blobs/1.0" c t call = [first, second] ∧
      first.outcome = .error (.transport .timeout) ∧ second.outcome = .error .timeout ∧
      p.run call = t.exchange handed ∧ ((p.run call).2.now : Int) ≤ 5000 := by
  intro o c t call
  have hp : o.assemble "blobs" "1.0" c t = .ok (o.pipeline "nimbus-rs-blobs/1.0" c t) := rfl
  have hc : c.Prompt := Credential.prompt_anonymous
  obtain ⟨agent, events, hagent, _, _, hlast, hdeadline, _⟩ := runs_keep_to_context hp hc call
  obtain rfl : "nimbus-rs-blobs/1.0" = agent := Except.ok.inj hagent
  have houtcomes : (o.attempts "nimbus-rs-blobs/1.0" c t call).map Attempt.outcome =
      [.error (.transport .timeout), .error .timeout] := by decide
  obtain ⟨first, _, hattempts, hfirst, hrest⟩ := List.map_eq_cons_iff.mp houtcomes
  obtain ⟨second, _, rfl, hsecond, hnone⟩ := List.map_eq_cons_iff.mp hrest
  obtain rfl := List.map_eq_nil_iff.mp hnone
  have hmem : second ∈ o.attempts "nimbus-rs-blobs/1.0" c t call := by simp [hattempts]
  obtain ⟨handed, hhanded⟩ : ∃ handed, c.handed second.before = .ok handed := ⟨_, rfl⟩
  have hexchange : (t.exchange handed).1 = .error .timeout := by
    rw [← outcome_attempting hhanded t, ← hsecond]
    exact (congrArg Attempt.outcome (PipelineOptions.eq_of_mem_attempts hmem)).symm
  have hrun := (hlast second hmem handed .timeout hhanded hexchange (.inl rfl)).2
  have hnow := (hdeadline 5000 rfl (by decide)).2
  exact ⟨_, first, second, _, hp, hc, hattempts, hfirst, hsecond, hrun, hnow⟩

end HttpPipeline
