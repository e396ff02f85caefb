import HttpPipeline.Proofs.Assembly
import HttpPipeline.Proofs.Retry.Attempts
import HttpPipeline.Script.Basic

/-! # What the peers of a pipeline are handed

  An attempt adds headers to the request, and the next attempt must not see them. The request
  that the retry policy was handed, with its mark, is the invariant: an attempt only adds behind
  the mark, and going back to the mark gives the same request again. So the journal of the two
  peers consists of rounds that all begin with that one request, and a round in which the
  transport is reached hands it what the credential made of the request just before.
-/

namespace HttpPipeline

variable {σ : Type}

/-- The request with headers added at its end. -/
def Request.extend (r : Request) (added : List (String × String)) : Request :=
  { r with headers := r.headers ++ added }

/-- Going back to a mark behind the last header takes away what was added since. -/
theorem Request.dropMarkedHeaders_extend (r : Request) (added : List (String × String)) :
    (r.markHeaders.extend added).dropMarkedHeaders = r.markHeaders := by
  simp [extend, markHeaders, dropMarkedHeaders]

/-- A credential that does nothing to a request but add headers at its end. -/
def Credential.AppendsOnly (c : Credential σ) : Prop :=
  ∀ r s, ∃ added, (c.authorize r s).request = r.extend added

namespace Credential

theorem appendsOnly_anonymous : (anonymous : Credential σ).AppendsOnly :=
  fun r _ => ⟨[], by simp [anonymous, Request.extend]⟩

theorem appendsOnly_bearer (token : Token) : (bearer token : Credential σ).AppendsOnly := by
  intro r s
  unfold bearer
  cases happend : r.appendHeader "Authorization" token.headerValue with
  | error e => exact ⟨[], by simp [happend, Request.extend]⟩
  | ok r' =>
    obtain ⟨_, _, rfl⟩ := Request.appendHeader_eq_ok_iff.mp happend
    exact ⟨_, by simp only [happend]; rfl⟩

end Credential

/-- Headers that are added one after another stand at the end, also if one cannot be added. -/
theorem Request.appendHeaders_eq_extend (r : Request) (headers : List (String × String)) :
    ∃ added, (r.appendHeaders headers).2 = r.extend added := by
  induction headers generalizing r with
  | nil => exact ⟨[], by simp [appendHeaders, extend]⟩
  | cons header headers ih =>
    cases happend : r.appendHeader header.1 header.2 with
    | error e => exact ⟨[], by simp [appendHeaders, happend, extend]⟩
    | ok r' =>
      obtain ⟨_, _, rfl⟩ := appendHeader_eq_ok_iff.mp happend
      obtain ⟨added, hadded⟩ := ih (r.extend [(Text.trim header.1, header.2)])
      refine ⟨(Text.trim header.1, header.2) :: added, ?_⟩
      simp only [appendHeaders, happend]
      refine hadded.trans ?_
      simp [extend]

theorem Credential.appendsOnly_scripted (next : σ → Grant × σ) :
    (scripted next).AppendsOnly :=
  fun r s => r.appendHeaders_eq_extend (next s.peer).1.headers

/-! ## §1. Rounds -/

/-- Handovers of attempts that each begin with the request `base`. -/
inductive Rounds (base : Request) : List Handover → Prop where
  /-- No attempt. -/
  | nil : Rounds base []
  /-- An attempt in which the credential fails, after adding some headers. -/
  | refused (added : List (String × String)) {rest : List Handover} :
    Rounds base rest → Rounds base (.authorized base (base.extend added) :: rest)
  /-- An attempt that reaches the transport. -/
  | sent (added : List (String × String)) {rest : List Handover} :
    Rounds base rest →
      Rounds base (.authorized base (base.extend added) :: .sent (base.extend added) :: rest)

/-- In rounds, the credential is always handed the same request. -/
theorem Rounds.authorized {base : Request} {handovers : List Handover}
    (h : Rounds base handovers) {before after : Request}
    (hmem : .authorized before after ∈ handovers) : before = base := by
  induction h with
  | nil => cases hmem
  | refused added _ ih =>
    rcases List.mem_cons.mp hmem with heq | hmem
    · injection heq
    · exact ih hmem
  | sent added _ ih =>
    rcases List.mem_cons.mp hmem with heq | hmem
    · injection heq
    · rcases List.mem_cons.mp hmem with heq | hmem
      · cases heq
      · exact ih hmem

/-- In rounds, the transport is handed what the credential has just made of the request. -/
theorem Rounds.getElem?_sent {base : Request} {handovers : List Handover}
    (h : Rounds base handovers) {i : Nat} {request : Request}
    (hi : handovers[i]? = some (.sent request)) :
    ∃ j added, i = j + 1 ∧ request = base.extend added ∧
      handovers[j]? = some (.authorized base request) := by
  induction h generalizing i with
  | nil => simp at hi
  | refused added _ ih =>
    cases i with
    | zero => simp at hi
    | succ i =>
      obtain ⟨j, added', rfl, hr, hj⟩ := ih (by simpa using hi)
      exact ⟨j + 1, added', rfl, hr, by simpa using hj⟩
  | sent added _ ih =>
    match i with
    | 0 => simp at hi
    | 1 =>
      obtain rfl : base.extend added = request := by simpa using hi
      exact ⟨0, added, rfl, rfl, rfl⟩
    | i + 2 =>
      obtain ⟨j, added', rfl, hr, hj⟩ := ih (by simpa using hi)
      exact ⟨j + 2, added', rfl, hr, by simpa using hj⟩

/-! ## §2. One attempt and all attempts -/

/-- What the peers are handed in an attempt. -/
def Attempt.handovers (c : Credential σ) (x : Attempt σ) : List Handover :=
  .authorized x.before.request (c.applied x.before).request ::
    match c.handed x.before with
    | .error _ => []
    | .ok handed => [.sent handed.request]

/-- The transport is handed the request as the credential left it. -/
theorem request_of_handed {c : Credential σ} {call handed : Call σ}
    (h : c.handed call = .ok handed) : handed.request = (c.applied call).request := by
  obtain rfl := Credential.handed_eq_ok h
  rfl

/-- In an attempt in which the credential fails, there is nothing more to hand over. -/
theorem handovers_of_error {c : Credential σ} {x : Attempt σ} {e : Error}
    (h : c.handed x.before = .error e) :
    x.handovers c = [.authorized x.before.request (c.applied x.before).request] := by
  rw [Attempt.handovers, h]

/-- Otherwise the transport is handed what the credential made of the request. -/
theorem handovers_of_handed {c : Credential σ} {x : Attempt σ} {handed : Call σ}
    (h : c.handed x.before = .ok handed) :
    x.handovers c = [.authorized x.before.request handed.request, .sent handed.request] := by
  rw [request_of_handed h, Attempt.handovers, h, ← request_of_handed h]

/-- An attempt does nothing to the request but what the credential does. -/
theorem request_attempting (c : Credential σ) (t : Transport σ) (call : Call σ) :
    ((Next.attempting c t).run call).2.request = (c.applied call).request := by
  rw [run_attempting]
  cases hhanded : c.handed call with
  | error e => rfl
  | ok handed =>
    rw [← request_of_handed hhanded]
    exact request_reported _ _

/-- Noting what the peers are handed changes nothing else in an attempt. -/
theorem attempting_writes (c : Credential σ) (t : Transport σ) :
    Exchange.Writes (Next.attempting c.journaled t.journaled).run (Next.attempting c t).run
      fun call => (Attempt.of (Next.attempting c t).run call).handovers c := by
  intro call entries
  let noted := entries ++ [.authorized call.request (c.applied call).request]
  have happlied : c.journaled.applied (call.journaled entries) =
      (c.applied call).journaled noted := rfl
  have hhanded : c.journaled.handed (call.journaled entries) =
      (c.handed call).map fun handed => handed.journaled noted := by
    have houtcome :
        (c.journaled.authorize call.request (call.journaled entries).toSession).outcome =
          (c.authorize call.request call.toSession).outcome := rfl
    unfold Credential.handed
    rw [show (call.journaled entries).request = call.request from rfl, houtcome]
    cases (c.authorize call.request call.toSession).outcome with
    | error e => rfl
    | ok _ => rfl
  simp only [Attempt.handovers, Attempt.of]
  rw [run_attempting, run_attempting, happlied, hhanded]
  cases c.handed call with
  | error e => rfl
  | ok handed =>
    have hsent : t.journaled.exchange (handed.journaled noted) = ((t.exchange handed).1,
        (t.exchange handed).2.journaled (noted ++ [.sent handed.request])) := rfl
    simp only [Except.map, hsent]
    refine (reported_journaled handed.now (t.exchange handed) _).trans ?_
    rw [List.append_assoc]
    rfl

/-- All attempts of a loop begin with the marked request with which the first one begins, if the
credential only adds headers. -/
theorem request_of_mem_attemptsFrom {o : RetryOptions} {c : Credential σ} (hc : c.AppendsOnly)
    {t : Transport σ} {r : Request} {left i : Nat} {call : Call σ}
    (hcall : call.request = r.markHeaders) {x : Attempt σ}
    (hx : x ∈ o.attemptsFrom (Next.attempting c t).run left i call) :
    x.before.request = r.markHeaders := by
  -- By induction on the attempts left; what each hands on to the next is the marked request again.
  induction left generalizing i call with
  | zero =>
    obtain rfl := List.mem_singleton.mp hx
    exact hcall
  | succ left ih =>
    rw [RetryOptions.attemptsFrom] at hx
    rcases List.mem_cons.mp hx with rfl | hx
    · exact hcall
    · cases hv : o.verdict i ((Next.attempting c t).run call).1
          ((Next.attempting c t).run call).2 with
      | leave final => simp [hv] at hx
      | again next =>
        obtain ⟨added, hadded⟩ := hc call.request call.toSession
        have happlied : (c.applied call).request = r.markHeaders.extend added := hcall ▸ hadded
        obtain ⟨_, _, hnext⟩ := RetryOptions.frame_of_again hv
        rw [request_attempting, happlied, Request.dropMarkedHeaders_extend] at hnext
        simp only [hv] at hx
        exact ih hnext hx

/-- The handovers of attempts that begin with the same request are rounds. -/
theorem rounds_handovers {c : Credential σ} (hc : c.AppendsOnly) {base : Request}
    {attempts : List (Attempt σ)} (h : ∀ x ∈ attempts, x.before.request = base) :
    Rounds base (attempts.flatMap fun x => x.handovers c) := by
  induction attempts with
  | nil => exact .nil
  | cons x attempts ih =>
    have hrest := ih fun y hy => h y (List.mem_cons_of_mem _ hy)
    obtain ⟨added, hadded⟩ := hc x.before.request x.before.toSession
    obtain rfl := h x List.mem_cons_self
    have happlied : (c.applied x.before).request = x.before.request.extend added := hadded
    rw [List.flatMap_cons]
    cases hhanded : c.handed x.before with
    | error e =>
      rw [handovers_of_error hhanded, happlied]
      exact .refused added hrest
    | ok handed =>
      rw [handovers_of_handed hhanded, request_of_handed hhanded, happlied]
      exact .sent added hrest

/-! ## §3. Runs -/

/-- Noting what the peers are handed changes nothing else in a run, and what is noted are the
handovers of its attempts. -/
theorem run_writes (o : PipelineOptions) (agent : String) (c : Credential σ)
    (t : Transport σ) :
    Exchange.Writes (o.pipeline agent c.journaled t.journaled).run (o.pipeline agent c t).run
      fun call => (o.attempts agent c t call).flatMap fun x => x.handovers c := by
  have hretry : Exchange.Writes
      ((Policy.retry o.retry).process (Next.attempting c.journaled t.journaled))
      ((Policy.retry o.retry).process (Next.attempting c t))
      fun call => (o.retry.attempts (Next.attempting c t) call).flatMap fun x =>
        x.handovers c := by
    intro call entries
    simp only [o.retry.attempts_eq]
    exact o.retry.attemptFrom_writes (attempting_writes c t) (o.retry.maxAttempts - 1) 1
      { call with request := call.request.markHeaders } entries
  -- Whether the request gets to the retry policy does not depend on the peers.
  intro call entries
  rw [o.run_pipeline, o.run_pipeline]
  simp only [PipelineOptions.attempts, PipelineOptions.prepare, Call.withRequest,
    Call.request_journaled]
  cases o.stamp call.request with
  | error e => simp
  | ok versioned =>
    simp only
    cases versioned.appendHeader "User-Agent" agent with
    | error e => simp [Call.journaled]
    | ok base => exact hretry { call with request := base } entries

/-- Noting what the peers are handed does not change a run. -/
theorem run_erases (o : PipelineOptions) (agent : String) (c : Credential σ)
    (t : Transport σ) :
    Exchange.Erases (o.pipeline agent c.journaled t.journaled).run
      (o.pipeline agent c t).run :=
  (run_writes o agent c t).erases

/-- A request that is sent through peers with a journal, empty at first, comes to the same, and
the handovers of the attempts are in the journal. -/
theorem send_journaled (o : PipelineOptions) (agent : String) (c : Credential σ)
    (t : Transport σ) (r : Request) (a : Ambient σ) :
    (o.pipeline agent c.journaled t.journaled).send r (a.journaled []) =
      (((o.pipeline agent c t).send r a).1, ((o.pipeline agent c t).send r a).2.1,
        ((o.pipeline agent c t).send r a).2.2.journaled
          ((o.attempts agent c t { a with request := r }).flatMap fun x => x.handovers c)) :=
  congrArg (fun result => (result.1, result.2.request, result.2.toAmbient))
    (run_writes o agent c t { a with request := r } [])

/-- All attempts of a run begin with the request as it goes to the retry policy. -/
theorem request_of_mem_attempts {o : PipelineOptions} {agent : String} {c : Credential σ}
    (hc : c.AppendsOnly) {t : Transport σ} {call : Call σ} {x : Attempt σ}
    (hx : x ∈ o.attempts agent c t call) :
    x.before.request = (o.stamped agent call.request).markHeaders := by
  cases hbase : o.prepare agent call.request with
  | error e => simp [PipelineOptions.attempts, hbase] at hx
  | ok base =>
    rw [PipelineOptions.attempts_of_prepare_eq_ok hbase] at hx
    obtain rfl := PipelineOptions.prepare_eq_ok hbase
    exact request_of_mem_attemptsFrom hc rfl hx

/-- The handovers of a whole run are rounds that begin with the request as it goes to the retry
policy. -/
theorem run_rounds (o : PipelineOptions) (agent : String) {c : Credential σ}
    (hc : c.AppendsOnly) (t : Transport σ) (call : Call (Journaled σ Handover)) :
    ∃ handovers, ((o.pipeline agent c.journaled t.journaled).run call).2.peer.entries =
        call.peer.entries ++ handovers ∧
      Rounds (o.stamped agent call.request).markHeaders handovers := by
  have hrun := run_writes o agent c t call.plain call.peer.entries
  refine ⟨_, congrArg (fun result => result.2.peer.entries) hrun, ?_⟩
  exact rounds_handovers hc fun x hx => request_of_mem_attempts hc hx

/-- **Nothing accumulates across attempts.** In a run of an assembled pipeline, whose peers note
what they are handed and do the same otherwise, the credential is always handed the request as
it is before every attempt: the initial one with the API version and the user agent put on it
once, in the query or at the end of the headers. Whenever the transport is handed a request,
the credential has just made it of that one, and it has only the headers more that the
credential added in that attempt. -/
theorem sent_requests_start_afresh {o : PipelineOptions} {component version : String}
    {c : Credential σ} {t : Transport σ} {p : Pipeline σ}
    (hp : o.assemble component version c t = .ok p) (hc : c.AppendsOnly) (r : Request)
    (a : Ambient σ) :
    ∃ agent p' handovers, o.telemetry.userAgent component version = .ok agent ∧
      o.assemble component version c.journaled t.journaled = .ok p' ∧
      p'.send r (a.journaled []) =
        ((p.send r a).1, (p.send r a).2.1, (p.send r a).2.2.journaled handovers) ∧
      let headers := r.headers ++ o.stampHeaders ++ [("User-Agent", agent)]
      let base := { r with url := o.stampedUrl r.url, headers, mark := headers.length }
      (∀ before after, .authorized before after ∈ handovers → before = base) ∧
      ∀ i request, handovers[i]? = some (.sent request) →
        ∃ j added, i = j + 1 ∧ handovers[j]? = some (.authorized base request) ∧
          request = { base with headers := headers ++ added } := by
  obtain ⟨agent, hagent, rfl⟩ := PipelineOptions.assemble_eq_ok hp
  let start : Call σ := { a with request := r }
  obtain ⟨handovers, hsame⟩ := run_erases o agent c t start []
  -- The rounds are about the journaled run; by erasure its journal is `handovers`.
  have hrounds : Rounds (o.stamped agent r).markHeaders handovers := by
    obtain ⟨noted, hentries, hrounds⟩ := run_rounds o agent hc t (start.journaled [])
    have : handovers = noted := by simpa [hsame] using hentries
    exact this ▸ hrounds
  refine ⟨agent, o.pipeline agent c.journaled t.journaled, handovers,
    PipelineOptions.admitted_eq_ok hagent, ?_, ?_, ?_⟩
  · rw [PipelineOptions.assemble_eq_map, hagent]
    rfl
  · rw [Pipeline.send_eq, Pipeline.send_eq]
    exact congrArg (fun result => (result.1, result.2.request, result.2.toAmbient)) hsame
  · intro headers base
    refine ⟨fun before after hmem => hrounds.authorized hmem, fun i request hi => ?_⟩
    obtain ⟨j, added, hij, hrequest, hj⟩ := hrounds.getElem?_sent hi
    exact ⟨j, added, hij, hj, hrequest⟩

/-- After a first attempt with two headers of the credential, the second one, with another
header, has nothing of them. -/
theorem sent_requests_start_afresh_after_unavailable :
    let o : PipelineOptions := { apiVersion := some ⟨.queryParameter, "api-version", "2024"⟩ }
    let c := Credential.scripted (Script.nextGrant 0)
    let t := Transport.scripted Script.nextReply
    let r : Request := { method := .get, url := "/a", urlCapacity := 64, headerCapacity := 4 }
    let script : Script := {
      replies := [{ outcome := .ok { status := 503 } }]
      grants := [[{ headers := [("x-one", "1"), ("x-two", "2")] },
        { headers := [("x-three", "3")] }]] }
    ∃ p, o.assemble "blobs" "1.0" c t = .ok p ∧ c.AppendsOnly ∧
      ∃ p', o.assemble "blobs" "1.0" c.journaled t.journaled = .ok p' ∧
        let handovers := (p'.send r (Ambient.journaled { peer := script } [])).2.2.peer.entries
        handovers.length = 4 ∧
          ∀ (i : Nat) request, handovers[i]? = some (.sent request) →
            ∃ added, request.url = "/a?api-version=2024" ∧
              request.headers = ("User-Agent", "nimbus-rs-blobs/1.0") :: added := by
  intro o c t r script
  have hp : o.assemble "blobs" "1.0" c t = .ok (o.pipeline "nimbus-rs-blobs/1.0" c t) := by
    rfl
  have hc := Credential.appendsOnly_scripted (Script.nextGrant 0)
  obtain ⟨agent, p', handovers, hagent, hp', hsend, _, hsent⟩ :=
    sent_requests_start_afresh hp hc r { peer := script }
  obtain rfl : "nimbus-rs-blobs/1.0" = agent := Except.ok.inj hagent
  refine ⟨_, hp, hc, p', hp', ?_, fun i request hi => ?_⟩
  · obtain rfl : o.pipeline "nimbus-rs-blobs/1.0" c.journaled t.journaled = p' :=
      Except.ok.inj hp'
    decide
  · rw [hsend] at hi
    obtain ⟨_, added, _, _, rfl⟩ := hsent i request hi
    have hurl : o.stampedUrl r.url = "/a?api-version=2024" := by decide
    exact ⟨added, hurl, rfl⟩

end HttpPipeline
