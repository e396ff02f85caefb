import HttpPipeline.Options.Basic
import HttpPipeline.Proofs.Retry.Reference
import HttpPipeline.Transport.Http

/-! # The assembled pipeline

  A run of an assembled pipeline has two parts. Once, the API version and the user agent are put
  on the request; if there is no room for them the run ends. Then the retry policy makes its
  attempts, each of which asks the credential, logs, and hands the request to the transport. The
  two parts are stated here as functions of their own, and the run of the pipeline as their
  composition; what is proved of whole runs goes through these equations alone.
-/

namespace HttpPipeline

variable {σ : Type}

/-! ## §1. What is put on a request once -/

namespace PipelineOptions

/-- The URL with the API version, if it goes into the query. -/
def stampedUrl (o : PipelineOptions) (url : String) : String :=
  match o.apiVersion with
  | some ⟨.queryParameter, name, version⟩ =>
    url ++ Request.separator url ++ name ++ "=" ++ version
  | _ => url

/-- The header with the API version, if it goes into one. -/
def stampHeaders (o : PipelineOptions) : List (String × String) :=
  match o.apiVersion with
  | some ⟨.header, name, version⟩ => [(Text.trim name, version)]
  | _ => []

/-- The request with the API version on it. -/
def stamp (o : PipelineOptions) (r : Request) : Except Error Request :=
  match o.apiVersion with
  | none => .ok r
  | some apiVersion => apiVersion.stamp r

/-- The request with all that is put on it once, if there is room for it. -/
def stamped (o : PipelineOptions) (agent : String) (r : Request) : Request :=
  { r with
    url := o.stampedUrl r.url
    headers := r.headers ++ o.stampHeaders ++ [("User-Agent", agent)] }

/-- The request as the retry policy is handed it. -/
def prepare (o : PipelineOptions) (agent : String) (r : Request) : Except Error Request :=
  match o.stamp r with
  | .error e => .error e
  | .ok versioned => versioned.appendHeader "User-Agent" agent

theorem stamp_eq_ok {o : PipelineOptions} {r versioned : Request}
    (h : o.stamp r = .ok versioned) :
    versioned = { r with
      url := o.stampedUrl r.url
      headers := r.headers ++ o.stampHeaders } := by
  unfold stamp at h
  unfold stampedUrl stampHeaders
  match hv : o.apiVersion with
  | none =>
    simp only [hv] at h
    simpa using (Except.ok.inj h).symm
  | some ⟨.header, name, version⟩ =>
    simp only [hv, ApiVersionOptions.stamp] at h
    exact (Request.appendHeader_eq_ok_iff.mp h).2.2
  | some ⟨.queryParameter, name, version⟩ =>
    simp only [hv, ApiVersionOptions.stamp] at h
    simpa using (Request.setQueryParameter_eq_ok_iff.mp h).2.2

/-- What is put on a request once: nothing but the API version and the user agent. -/
theorem prepare_eq_ok {o : PipelineOptions} {agent : String} {r base : Request}
    (h : o.prepare agent r = .ok base) :
    base = o.stamped agent r := by
  unfold prepare at h
  split at h
  · cases h
  · next versioned hs =>
    obtain ⟨_, _, rfl⟩ := Request.appendHeader_eq_ok_iff.mp h
    have hname : Text.trim "User-Agent" = "User-Agent" := by decide
    rw [hname, stamp_eq_ok hs]
    rfl

end PipelineOptions

/-! ## §2. One attempt -/

/-- The part of an assembled pipeline that is run again: the credential, the log and the
transport. -/
def Next.attempting (c : Credential σ) (t : Transport σ) : Next σ :=
  Next.ofChain [Policy.credential c, Policy.logging] t

/-- The call after a credential has been asked. -/
def Credential.applied (c : Credential σ) (call : Call σ) : Call σ :=
  let authorized := c.authorize call.request call.toSession
  { toSession := authorized.session
    registry := call.registry
    trace := call.trace ++ authorized.events
    fault := call.fault
    request := authorized.request }

/-- The call that the transport is handed in an attempt, unless the credential fails. -/
def Credential.handed (c : Credential σ) (call : Call σ) : Except Error (Call σ) :=
  match (c.authorize call.request call.toSession).outcome with
  | .error e => .error e
  | .ok () =>
    .ok ((c.applied call).logText .httpRequest (Log.requestMessage (c.applied call).request))

/-- What the transport is handed is the request as the credential left it, and it has been
logged. -/
theorem Credential.handed_eq_ok {c : Credential σ} {call handed : Call σ}
    (h : c.handed call = .ok handed) :
    handed = (c.applied call).logText .httpRequest
      (Log.requestMessage (c.applied call).request) := by
  unfold Credential.handed at h
  split at h
  · cases h
  · exact (Except.ok.inj h).symm

/-- What a logging policy makes of the result of the exchange that it began at `started`. -/
def reported (started : Nat) (result : Outcome × Call σ) : Outcome × Call σ :=
  match result.1 with
  | .error e => (.error e, result.2)
  | .ok response =>
    (.ok response, result.2.logText .httpResponse
      (Log.responseMessage response (result.2.now - started) result.2.request))

@[simp] theorem outcome_reported (started : Nat) (result : Outcome × Call σ) :
    (reported started result).1 = result.1 := by
  unfold reported
  split <;> simp_all

@[simp] theorem request_reported (started : Nat) (result : Outcome × Call σ) :
    (reported started result).2.request = result.2.request := by
  unfold reported
  split <;> rfl

@[simp] theorem toSession_reported (started : Nat) (result : Outcome × Call σ) :
    (reported started result).2.toSession = result.2.toSession := by
  unfold reported
  split <;> rfl

/-- A journal does not change what is reported. -/
theorem reported_journaled {ε : Type} (started : Nat) (result : Outcome × Call σ)
    (entries : List ε) :
    reported started (result.1, result.2.journaled entries) =
      ((reported started result).1, (reported started result).2.journaled entries) := by
  obtain ⟨outcome, after⟩ := result
  cases outcome with
  | error e => rfl
  | ok response => rfl

/-- An attempt ends with the failure of the credential, or it is an exchange of the
transport. -/
theorem run_attempting (c : Credential σ) (t : Transport σ) (call : Call σ) :
    (Next.attempting c t).run call =
      match c.handed call with
      | .error e => (.error e, c.applied call)
      | .ok handed => reported handed.now (t.exchange handed) := by
  simp only [Next.attempting, Next.ofChain, Policy.credential, Credential.handed]
  cases (c.authorize call.request call.toSession).outcome with
  | error e => rfl
  | ok _ => rfl

/-- An attempt in which the transport is reached ends as the exchange does. -/
theorem outcome_attempting {c : Credential σ} {call handed : Call σ}
    (h : c.handed call = .ok handed) (t : Transport σ) :
    ((Next.attempting c t).run call).1 = (t.exchange handed).1 := by
  rw [run_attempting, h]
  exact outcome_reported _ _

/-! ## §3. A run -/

/-- To send a request is to run the call with it. -/
theorem Pipeline.send_eq (p : Pipeline σ) (r : Request) (a : Ambient σ) :
    p.send r a = ((p.run { a with request := r }).1, (p.run { a with request := r }).2.request,
      (p.run { a with request := r }).2.toAmbient) := rfl

namespace PipelineOptions

/-- The pipeline that is assembled once the user agent is known. -/
def pipeline (o : PipelineOptions) (agent : String) (c : Credential σ) (t : Transport σ) :
    Pipeline σ where
  policies := (o.apiVersion.map Policy.apiVersion).toList ++ [Policy.telemetry agent,
    Policy.retry o.retry, Policy.credential c, Policy.logging]
  transport := t

/-- The user agent of the pipeline, if the options are in order. -/
def admitted (o : PipelineOptions) (component version : String) : Except Error String :=
  match o.apiVersion.map ApiVersionOptions.validate with
  | some (.error e) => .error e
  | _ => o.telemetry.userAgent component version

theorem admitted_eq_ok {o : PipelineOptions} {component version agent : String}
    (h : o.admitted component version = .ok agent) :
    o.telemetry.userAgent component version = .ok agent := by
  unfold admitted at h
  split at h
  · cases h
  · exact h

/-- Whether a pipeline can be assembled depends on the options alone, and not on its peers. -/
theorem assemble_eq_map (o : PipelineOptions) (component version : String) (c : Credential σ)
    (t : Transport σ) :
    o.assemble component version c t =
      (o.admitted component version).map fun agent => o.pipeline agent c t := by
  unfold assemble apiVersionPolicies admitted pipeline
  cases o.apiVersion with
  | none => rfl
  | some v =>
    simp only [Option.map_some, ApiVersionOptions.validate]
    split <;> rfl

/-- An assembled pipeline is the one of its options, its user agent and its peers. -/
theorem assemble_eq_ok {o : PipelineOptions} {component version : String} {c : Credential σ}
    {t : Transport σ} {p : Pipeline σ} (h : o.assemble component version c t = .ok p) :
    ∃ agent, o.admitted component version = .ok agent ∧ p = o.pipeline agent c t := by
  rw [assemble_eq_map] at h
  cases hagent : o.admitted component version with
  | error e =>
    rw [hagent] at h
    cases h
  | ok agent =>
    rw [hagent] at h
    exact ⟨agent, rfl, (Except.ok.inj h).symm⟩

/-- Options that are in order assemble any peers. -/
theorem assemble_of_admitted {o : PipelineOptions} {component version agent : String}
    (h : o.admitted component version = .ok agent) (c : Credential σ) (t : Transport σ) :
    o.assemble component version c t = .ok (o.pipeline agent c t) := by
  rw [assemble_eq_map, h]
  rfl

/-- A run puts the API version and the user agent on the request, and then goes to the retry
policy. -/
theorem run_pipeline (o : PipelineOptions) (agent : String) (c : Credential σ)
    (t : Transport σ) (call : Call σ) :
    (o.pipeline agent c t).run call =
      call.withRequest (o.stamp call.request) fun call =>
        call.withRequest (call.request.appendHeader "User-Agent" agent)
          ((Policy.retry o.retry).process (Next.attempting c t)) := by
  unfold stamp Pipeline.run pipeline
  cases o.apiVersion with
  | none => rfl
  | some apiVersion => rfl

/-- With room for what is put on it once, a request goes to the retry policy. -/
theorem run_of_prepare_eq_ok {o : PipelineOptions} {agent : String} {c : Credential σ}
    {t : Transport σ} {call : Call σ} {base : Request}
    (h : o.prepare agent call.request = .ok base) :
    (o.pipeline agent c t).run call =
      (Policy.retry o.retry).process (Next.attempting c t) { call with request := base } := by
  rw [run_pipeline]
  unfold prepare at h
  split at h
  · cases h
  · next versioned hs => simp [Call.withRequest, hs, h]

/-- Without the room, the run ends there, and leaves nothing but a changed request. -/
theorem run_of_prepare_eq_error {o : PipelineOptions} {agent : String} {c : Credential σ}
    {t : Transport σ} {call : Call σ} {e : Error}
    (h : o.prepare agent call.request = .error e) :
    ∃ left, (o.pipeline agent c t).run call = (.error e, { call with request := left }) := by
  rw [run_pipeline]
  unfold prepare at h
  split at h
  · next e' hs =>
    cases h
    exact ⟨call.request, by simp [Call.withRequest, hs]⟩
  · next versioned hs => exact ⟨versioned, by simp [Call.withRequest, hs, h]⟩

/-- The attempts of a run, each of them a run of the credential, the log and the transport. -/
def attempts (o : PipelineOptions) (agent : String) (c : Credential σ) (t : Transport σ)
    (call : Call σ) : List (Attempt σ) :=
  match o.prepare agent call.request with
  | .error _ => []
  | .ok base => o.retry.attempts (Next.attempting c t) { call with request := base }

theorem attempts_of_prepare_eq_ok {o : PipelineOptions} {agent : String} {c : Credential σ}
    {t : Transport σ} {call : Call σ} {base : Request}
    (h : o.prepare agent call.request = .ok base) :
    o.attempts agent c t call =
      o.retry.attemptsFrom (Next.attempting c t).run (o.retry.maxAttempts - 1) 1
        { call with request := base.markHeaders } := by
  simp only [attempts, h]
  exact o.retry.attempts_eq _ _

/-- A run that gets to the retry policy follows its rules. -/
theorem attempts_follow {o : PipelineOptions} {agent : String} {call : Call σ} {base : Request}
    (h : o.prepare agent call.request = .ok base) (c : Credential σ) (t : Transport σ) :
    o.retry.Follows (Next.attempting c t).run 1 { call with request := base.markHeaders }
      (o.attempts agent c t call) ((o.pipeline agent c t).run call) := by
  have hone := o.retry.one_le_maxAttempts
  rw [run_of_prepare_eq_ok h, attempts_of_prepare_eq_ok h]
  exact o.retry.attemptsFrom_follow _ (o.retry.maxAttempts - 1) 1 _ (by omega)

theorem eq_of_mem_attempts {o : PipelineOptions} {agent : String} {c : Credential σ}
    {t : Transport σ} {call : Call σ} {x : Attempt σ} (hx : x ∈ o.attempts agent c t call) :
    x = Attempt.of (Next.attempting c t).run x.before := by
  cases hbase : o.prepare agent call.request with
  | error e => simp [attempts, hbase] at hx
  | ok base =>
    rw [attempts_of_prepare_eq_ok hbase] at hx
    exact RetryOptions.eq_of_mem_attemptsFrom hx

end PipelineOptions

end HttpPipeline
