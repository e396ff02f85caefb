import HttpPipeline.Proofs.Retry.Reference
import HttpPipeline.Proofs.Transparency

/-! # The account of a run

  What the log says of a run, read off its attempts. An attempt is reported by nothing if the
  credential fails, by its request if the transport fails, and by its request and its response
  otherwise. Between two attempts stands the announcement of the retry. After the last attempt
  stands an announcement only if the policy began to wait once more and the call was cancelled in
  that wait; the run has then ended later than the attempt. A quiet callback is delivered this
  account and nothing else, and under a filter the part of it that the filter lists.
-/

namespace HttpPipeline

variable {σ : Type}

/-! ## §1. The account -/

/-- What the log says of an attempt. -/
def Attempt.account (c : Credential σ) (x : Attempt σ) : List Log.Entry :=
  match c.handed x.before with
  | .error _ => []
  | .ok handed =>
    ⟨handed.now, .httpRequest, Log.requestMessage handed.request⟩ ::
      match x.outcome with
      | .error _ => []
      | .ok response =>
        [⟨x.after.now, .httpResponse,
          Log.responseMessage response (x.after.now - handed.now) x.after.request⟩]

namespace RetryOptions

/-- The announcement of the retry after attempt number `i`. -/
def announcement (o : RetryOptions) (i : Nat) (x : Attempt σ) : Log.Entry :=
  ⟨x.after.now, .httpRetry, o.notice i x.outcome⟩

/-- What the log says of attempts, counted from number `i` on, in a run that ended at the instant
`ended`. -/
def account (o : RetryOptions) (c : Credential σ) (ended : Nat) :
    (i : Nat) → List (Attempt σ) → List Log.Entry
  | _, [] => []
  | i, [last] =>
    last.account c ++ if last.after.now < ended then [o.announcement i last] else []
  | i, x :: y :: rest =>
    x.account c ++ o.announcement i x :: account o c ended (i + 1) (y :: rest)

/-- An attempt before others is reported and followed by an announcement. -/
theorem account_cons (o : RetryOptions) (c : Credential σ) (ended i : Nat) (x : Attempt σ)
    {rest : List (Attempt σ)} (h : rest ≠ []) :
    o.account c ended i (x :: rest) =
      x.account c ++ o.announcement i x :: o.account c ended (i + 1) rest := by
  cases rest with
  | nil => exact absurd rfl h
  | cons y rest => rfl

/-! ## §2. The end of the loop -/

theorem attemptsFrom_ne_nil (o : RetryOptions) (rest : Exchange σ) (left i : Nat)
    (call : Call σ) : o.attemptsFrom rest left i call ≠ [] := by
  cases left with
  | zero => exact List.cons_ne_nil _ _
  | succ left => exact List.cons_ne_nil _ _

/-- A call that ends by the rules ends later than its last attempt exactly if it was cancelled in
the wait after it, and then at the instant of the cancellation. -/
theorem EndsWith.later_iff {o : RetryOptions} {i : Nat} {x : Attempt σ}
    {result : Outcome × Call σ} (h : o.EndsWith i x result) :
    (x.after.now < result.2.now ↔ ∃ k, o.Interrupted i x k) ∧
      ∀ k, o.Interrupted i x k → result.2.now = k := by
  refine ⟨⟨?_, ?_⟩, ?_⟩
  · intro hlt
    apply Classical.byContradiction
    intro hnot
    -- Then the call is as the attempt left it, and no time has passed since.
    have hsame : result.2 = x.after := h.settled fun k hk => hnot ⟨k, hk⟩
    rw [hsame] at hlt
    exact Nat.lt_irrefl _ hlt
  · intro ⟨k, hk⟩
    rw [h.interrupted k hk]
    exact hk.waits.pending k hk.cancelAt
  · intro k hk
    rw [h.interrupted k hk]

end RetryOptions

/-! ## §3. Peers that do not log -/

/-- A credential that delivers nothing to the log itself. -/
def Credential.Silent (c : Credential σ) : Prop :=
  ∀ r s, deliveries (c.authorize r s).events = []

/-- A transport that delivers nothing to the log itself. -/
def Transport.Silent (t : Transport σ) : Prop :=
  ∀ r s, deliveries (t.send r s).events = []

theorem Credential.silent_anonymous : (anonymous : Credential σ).Silent :=
  fun _ _ => rfl

theorem Credential.silent_bearer (token : Token) : (bearer token : Credential σ).Silent := by
  intro r s
  unfold bearer
  dsimp only
  split <;> rfl

theorem Credential.silent_scripted (next : σ → Grant × σ) : (scripted next).Silent :=
  fun _ _ => rfl

theorem Transport.silent_scripted (next : σ → Reply × σ) : (scripted next).Silent :=
  fun _ _ => rfl

theorem Transport.silent_http (client : Client σ) : (http client).Silent := by
  intro r s
  simp only [http]
  cases s.context.check s.now with
  | error e => rfl
  | ok _ => rfl

/-! ## §4. What is delivered -/

variable {listener : Log.Callback}

/-- A credential that does not log leaves the log as it was. -/
theorem deliveries_applied {c : Credential σ} (hc : c.Silent) (call : Call σ) :
    deliveries (c.applied call).trace = deliveries call.trace := by
  show deliveries (call.trace ++ _) = _
  rw [deliveries_append, hc, List.append_nil]

/-- A transport that does not log leaves the log as it was. -/
theorem deliveries_exchange {t : Transport σ} (ht : t.Silent) (call : Call σ) :
    deliveries (t.exchange call).2.trace = deliveries call.trace := by
  show deliveries (call.trace ++ _) = _
  rw [deliveries_append, ht, List.append_nil]

/-- What the transport is handed has been logged as it is. -/
theorem deliveries_handed {c : Credential σ} (hc : c.Silent) {call handed : Call σ}
    (h : call.registry.ListensQuietly listener) (hhanded : c.handed call = .ok handed) :
    handed.registry = call.registry ∧
      deliveries handed.trace = deliveries call.trace ++ call.registry.record listener
        [⟨handed.now, .httpRequest, Log.requestMessage handed.request⟩] := by
  obtain rfl := Credential.handed_eq_ok hhanded
  have happlied : (c.applied call).registry.ListensQuietly listener := h
  obtain ⟨hregistry, hlogged⟩ := logText_of_quiet happlied .httpRequest
    (Log.requestMessage (c.applied call).request)
  rw [deliveries_applied hc] at hlogged
  exact ⟨hregistry, hlogged⟩

/-- An exchange is reported to a quiet callback by its response, if it has one. -/
theorem deliveries_reported {after : Call σ} (h : after.registry.ListensQuietly listener)
    (started : Nat) (outcome : Outcome) :
    (reported started (outcome, after)).2.registry = after.registry ∧
      deliveries (reported started (outcome, after)).2.trace =
        deliveries after.trace ++ after.registry.record listener (match outcome with
          | .error _ => []
          | .ok response => [⟨after.now, .httpResponse,
              Log.responseMessage response (after.now - started) after.request⟩]) := by
  cases outcome with
  | error e => exact ⟨rfl, (List.append_nil _).symm⟩
  | ok response => exact logText_of_quiet h _ _

/-- The account of an attempt in which the transport is reached, in terms of the exchange. -/
theorem account_of_handed {c : Credential σ} {call handed : Call σ}
    (hhanded : c.handed call = .ok handed) (t : Transport σ) :
    (Attempt.of (Next.attempting c t).run call).account c =
      [⟨handed.now, .httpRequest, Log.requestMessage handed.request⟩] ++
        match (t.exchange handed).1 with
        | .error _ => []
        | .ok response => [⟨(t.exchange handed).2.now, .httpResponse,
            Log.responseMessage response ((t.exchange handed).2.now - handed.now)
              (t.exchange handed).2.request⟩] := by
  have hbefore : (Attempt.of (Next.attempting c t).run call).before = call := rfl
  unfold Attempt.account
  rw [hbefore, hhanded]
  simp only [Attempt.of, run_attempting, hhanded, outcome_reported, request_reported]
  -- Reporting takes no time.
  rw [show (reported handed.now (t.exchange handed)).2.now = (t.exchange handed).2.now from
    congrArg Session.now (toSession_reported _ _)]
  cases (t.exchange handed).1 with
  | error e => rfl
  | ok response => rfl

/-- **An attempt is logged as its account.** -/
theorem deliveries_attempt {c : Credential σ} (hc : c.Silent) {t : Transport σ} (ht : t.Silent)
    {call : Call σ} (h : call.registry.ListensQuietly listener) :
    let x := Attempt.of (Next.attempting c t).run call
    x.after.registry = call.registry ∧
      deliveries x.after.trace =
        deliveries call.trace ++ call.registry.record listener (x.account c) := by
  intro x
  have hafter : x.after = _ := congrArg Prod.snd (run_attempting c t call)
  cases hhanded : c.handed call with
  | error e =>
    have hnone : x.account c = [] := by
      unfold Attempt.account
      rw [show x.before = call from rfl, hhanded]
    rw [hhanded] at hafter
    rw [hafter, hnone, deliveries_applied hc]
    exact ⟨rfl, (List.append_nil _).symm⟩
  | ok handed =>
    rw [hhanded] at hafter
    -- First the request is logged, and then, after the exchange, the response.
    obtain ⟨hregistry, hrequest⟩ := deliveries_handed hc h hhanded
    have hsent : (t.exchange handed).2.registry = call.registry := hregistry
    have hquiet : (t.exchange handed).2.registry.ListensQuietly listener := hsent ▸ h
    obtain ⟨hreported, hresponse⟩ :=
      deliveries_reported hquiet handed.now (t.exchange handed).1
    refine ⟨?_, ?_⟩
    · rw [hafter]
      exact hreported.trans hsent
    · rw [deliveries_exchange ht, hrequest, hsent, List.append_assoc,
        ← Log.Registry.record_append, ← account_of_handed hhanded t] at hresponse
      rw [hafter]
      exact hresponse

/-! ## §5. What a loop delivers -/

/-- What a call that announces a retry has logged. -/
theorem deliveries_noticed (o : RetryOptions) (i : Nat) {x : Attempt σ}
    (h : x.after.registry.ListensQuietly listener) :
    (x.after.logText .httpRetry (o.notice i x.outcome)).registry = x.after.registry ∧
      deliveries (x.after.logText .httpRetry (o.notice i x.outcome)).trace =
        deliveries x.after.trace ++
          x.after.registry.record listener [o.announcement i x] :=
  logText_of_quiet h .httpRetry _

/-- A policy that goes on has announced the retry. -/
theorem deliveries_of_again {o : RetryOptions} {i : Nat} {x : Attempt σ} {next : Call σ}
    (h : x.after.registry.ListensQuietly listener)
    (hv : o.verdict i x.outcome x.after = .again next) :
    next.registry = x.after.registry ∧
      deliveries next.trace = deliveries x.after.trace ++
        x.after.registry.record listener [o.announcement i x] := by
  rcases o.verdict_by_rules i x with ⟨_, hstay⟩ | ⟨_, k, _, _, hstay⟩ | ⟨_, _, hgo⟩
  · cases hstay.symm.trans hv
  · cases hstay.symm.trans hv
  · cases hgo.symm.trans hv
    exact deliveries_noticed o i h

/-- A policy that leaves has announced a retry only if it has waited. -/
theorem deliveries_of_leave {o : RetryOptions} {i : Nat} {x : Attempt σ} {final : Call σ}
    (h : x.after.registry.ListensQuietly listener)
    (hv : o.verdict i x.outcome x.after = .leave final) :
    deliveries final.trace = deliveries x.after.trace ++ x.after.registry.record listener
      (if x.after.now < final.now then [o.announcement i x] else []) := by
  rcases o.verdict_by_rules i x with ⟨_, hstay⟩ | ⟨hwaits, k, hk, _, hstay⟩ | ⟨_, _, hgo⟩
  · cases hstay.symm.trans hv
    rw [if_neg (Nat.lt_irrefl _)]
    exact (List.append_nil _).symm
  · obtain ⟨_, hlogged⟩ := deliveries_noticed o i h
    cases hstay.symm.trans hv
    rw [if_pos (hwaits.pending k hk)]
    exact hlogged
  · cases hgo.symm.trans hv

/-- **A loop is logged as the account of its attempts.** -/
theorem deliveries_attemptFrom (o : RetryOptions) {c : Credential σ} (hc : c.Silent)
    {t : Transport σ} (ht : t.Silent) (left i : Nat) {call : Call σ}
    (h : call.registry.ListensQuietly listener) :
    let rest := (Next.attempting c t).run
    let final := (o.attemptFrom rest left i call).2
    deliveries final.trace = deliveries call.trace ++
      call.registry.record listener
        (o.account c final.now i (o.attemptsFrom rest left i call)) := by
  intro rest
  -- By induction on the attempts left. The registry, which the callback leaves alone, is the same
  -- for all of them.
  induction left generalizing i call with
  | zero =>
    intro final
    have hlast : o.account c final.now i (o.attemptsFrom rest 0 i call) =
        (Attempt.of rest call).account c := by
      show _ ++ (if (rest call).2.now < (rest call).2.now then _ else _) = _
      rw [if_neg (Nat.lt_irrefl _), List.append_nil]
    rw [hlast]
    exact (deliveries_attempt hc ht h).2
  | succ left ih =>
    obtain ⟨hregistry, hattempt⟩ := deliveries_attempt hc ht h
    have hquiet : (Attempt.of rest call).after.registry.ListensQuietly listener :=
      hregistry ▸ h
    rw [RetryOptions.attemptFrom_succ, RetryOptions.attemptsFrom]
    cases hv : o.verdict i (rest call).1 (rest call).2 with
    | leave final =>
      have hleave := deliveries_of_leave hquiet hv
      intro final'
      show deliveries final.trace = _ ++ call.registry.record listener
        ((Attempt.of rest call).account c ++ if _ < final.now then _ else _)
      rw [hleave, hattempt, hregistry, Log.Registry.record_append, List.append_assoc]
    | again next =>
      obtain ⟨hsame, hagain⟩ := deliveries_of_again hquiet hv
      have hnext : next.registry = call.registry := hsame.trans hregistry
      have hrest := ih (i + 1) (hnext ▸ h)
      intro final
      rw [o.account_cons c final.now i _ (o.attemptsFrom_ne_nil rest left (i + 1) next)]
      refine hrest.trans ?_
      rw [hagain, hattempt, hnext, hregistry, List.append_assoc, List.append_assoc,
        ← Log.Registry.record_append, ← Log.Registry.record_append]
      rfl

/-! ## §6. Runs -/

/-- A run is logged as the account of its attempts. -/
theorem deliveries_run (o : PipelineOptions) (agent : String) {c : Credential σ}
    (hc : c.Silent) {t : Transport σ} (ht : t.Silent) {call : Call σ}
    (h : call.registry.ListensQuietly listener) :
    let final := ((o.pipeline agent c t).run call).2
    deliveries final.trace = deliveries call.trace ++
      call.registry.record listener
        (o.retry.account c final.now 1 (o.attempts agent c t call)) := by
  cases hbase : o.prepare agent call.request with
  | error e =>
    obtain ⟨left, hrun⟩ := PipelineOptions.run_of_prepare_eq_error (c := c) (t := t) hbase
    have hnone : o.attempts agent c t call = [] := by
      unfold PipelineOptions.attempts
      rw [hbase]
    rw [hrun, hnone]
    exact (List.append_nil _).symm
  | ok base =>
    rw [PipelineOptions.run_of_prepare_eq_ok hbase,
      PipelineOptions.attempts_of_prepare_eq_ok hbase]
    exact deliveries_attemptFrom o.retry hc ht (o.retry.maxAttempts - 1) 1 h

/-- A run that makes attempts ends by the retry rules after the last one. -/
theorem endsWith_of_last_attempt (o : PipelineOptions) (agent : String) (c : Credential σ)
    (t : Transport σ) (call : Call σ) {last : Attempt σ}
    (hlast : (o.attempts agent c t call).getLast? = some last) :
    o.retry.EndsWith (o.attempts agent c t call).length last ((o.pipeline agent c t).run call) := by
  cases hbase : o.prepare agent call.request with
  | error e => simp [PipelineOptions.attempts, hbase] at hlast
  | ok base =>
    obtain ⟨last', hlast', hend⟩ := (PipelineOptions.attempts_follow hbase c t).ends
    obtain rfl : last = last' := Option.some.inj (hlast.symm.trans hlast')
    rw [Nat.add_sub_cancel_left] at hend
    exact hend

/-- Each further attempt of a run begins when the wait after the one before it is over. -/
theorem attempts_paced (o : PipelineOptions) (agent : String) (c : Credential σ)
    (t : Transport σ) (call : Call σ) {n : Nat} {x y : Attempt σ}
    (hx : (o.attempts agent c t call)[n]? = some x)
    (hy : (o.attempts agent c t call)[n + 1]? = some y) :
    y.before.now = x.after.now + o.retry.lastingWait (n + 1) x.outcome := by
  cases hbase : o.prepare agent call.request with
  | error e => simp [PipelineOptions.attempts, hbase] at hx
  | ok base =>
    obtain rfl := (PipelineOptions.attempts_follow hbase c t).further n x y hx hy
    rw [Nat.add_comm n 1]
    rfl

/-- Attempts that are the same but for the log have the same account. -/
theorem account_eq_of_sameButLog (c : Credential σ) {x y : Attempt σ}
    (h : Likeness.butLog.Attempts x y) : x.account c = y.account c := by
  have hhanded := Likeness.butLog.alike_handed (authorizes_butLog c) h.before
  unfold Attempt.account
  rw [h.outcome.eq, h.after.now, h.after.request]
  revert hhanded
  generalize c.handed x.before = u
  generalize c.handed y.before = v
  intro hhanded
  cases hhanded with
  | error e => rfl
  | ok hcalls =>
    have hnow := hcalls.now
    have hrequest := hcalls.request
    simp only [hnow, hrequest]

/-- Lists of attempts that are the same but for the log have the same account. -/
theorem accounts_eq_of_sameButLog (o : RetryOptions) (c : Credential σ) (ended i : Nat)
    {xs ys : List (Attempt σ)} (h : List.Forall₂ Likeness.butLog.Attempts xs ys) :
    o.account c ended i xs = o.account c ended i ys := by
  induction h generalizing i with
  | nil => rfl
  | @cons x y xs ys hxy h ih =>
    have hannouncement : o.announcement i x = o.announcement i y := by
      unfold RetryOptions.announcement
      rw [hxy.outcome.eq, hxy.after.now]
    cases h with
    | nil =>
      unfold RetryOptions.account
      rw [account_eq_of_sameButLog c hxy, hannouncement, hxy.after.now]
    | cons hxy' h =>
      rw [o.account_cons c ended i x (List.cons_ne_nil _ _),
        o.account_cons c ended i y (List.cons_ne_nil _ _), ih (i + 1),
        account_eq_of_sameButLog c hxy, hannouncement]

/-- **The log of a run is the account of its attempts.** With a callback that only records and no
filter, and with peers that do not log themselves, what is delivered is the account and nothing
else. An announcement follows the last attempt exactly if the call was cancelled in the wait after
it, and the run has then ended at the cancellation. Each further attempt begins when the wait after
the one before it is over, which lasts as long as it was announced to, or thirty years if that is
shorter. And with a filter the deliveries are those among them whose classifications the filter
lists. -/
theorem log_is_account_of_attempts {o : PipelineOptions} {component version : String}
    {c : Credential σ} {t : Transport σ} {p : Pipeline σ}
    (hp : o.assemble component version c t = .ok p) (hc : c.Silent) (ht : t.Silent)
    (r : Request) (a : Ambient σ) (h : a.registry.ListensQuietly listener)
    (hopen : a.registry.filter = none) :
    let call : Call σ := { a with request := r }
    let final := (p.run call).2
    ∃ agent, o.telemetry.userAgent component version = .ok agent ∧
      let attempts := o.attempts agent c t call
      let log := (o.retry.account c final.now 1 attempts).map (Log.Entry.deliveredTo listener)
      deliveries final.trace = deliveries a.trace ++ log ∧
      (∀ last, attempts.getLast? = some last →
        (last.after.now < final.now ↔ ∃ k, o.retry.Interrupted attempts.length last k) ∧
          ∀ k, o.retry.Interrupted attempts.length last k → final.now = k) ∧
      (∀ n x y, attempts[n]? = some x → attempts[n + 1]? = some y →
        y.before.now = x.after.now + o.retry.lastingWait (n + 1) x.outcome) ∧
      ∀ f : Log.Filter,
        let filtered := (p.run { call with registry := a.registry.setFilter (some f) }).2
        deliveries filtered.trace = deliveries a.trace ++
          log.filter fun delivered => f.contains delivered.2.classification := by
  obtain ⟨agent, hagent, rfl⟩ := PipelineOptions.assemble_eq_ok hp
  intro call final
  refine ⟨agent, PipelineOptions.admitted_eq_ok hagent, ?_⟩
  intro attempts log
  have hquiet : call.registry.ListensQuietly listener := h
  have hrun : deliveries final.trace = _ := deliveries_run o agent hc ht hquiet
  refine ⟨?_, ?_, ?_, ?_⟩
  · rw [hrun, Log.Registry.record_of_open hopen]
  · intro last hlast
    exact (endsWith_of_last_attempt o agent c t call hlast).later_iff
  · intro n x y hx hy
    exact attempts_paced o agent c t call hx hy
  · intro f filtered
    -- The filter changes the log alone, so the attempts are the same, and so is their account.
    have hstart : call.SameButLog { call with registry := a.registry.setFilter (some f) } :=
      ⟨rfl, rfl, rfl⟩
    obtain ⟨_, hfinal⟩ := Likeness.butLog.links_run o agent (authorizes_butLog c)
      (links_butLog t) _ _ hstart
    have hnow : final.now = filtered.now := hfinal.now
    have haccount := accounts_eq_of_sameButLog o.retry c final.now 1
      (attempts_sameButLog o agent c t hstart)
    have hquiet' : (a.registry.setFilter (some f)).ListensQuietly listener :=
      ⟨h.callback, h.quiet⟩
    have hfiltered : deliveries filtered.trace = _ := deliveries_run o agent hc ht hquiet'
    rw [hfiltered, Log.Registry.record_setFilter, ← hnow, ← haccount]

/-- After an exchange that failed and a response to retry after, the call is cancelled in the
second wait: its announcement comes last. -/
theorem log_is_account_of_attempts_until_cancelled :
    let o : PipelineOptions := {}
    let c : Credential Script := Credential.anonymous
    let t := Transport.scripted Script.nextReply
    let r : Request := { method := .get, url := "/a", urlCapacity := 64, headerCapacity := 4 }
    let listener := Log.Callback.recording "log"
    let start : Ambient Script := {
      context := { cancelAt := some 5000 }
      registry := { callback := some listener }
      peer := { replies := [{ outcome := .error .timeout },
        { delay := 7, outcome := .ok { status := 503 } }] } }
    let call : Call Script := { start with request := r }
    let attempts := o.attempts "nimbus-rs-blobs/1.0" c t call
    let only : Log.Filter := ⟨[.httpRetry]⟩
    ∃ p, o.assemble "blobs" "1.0" c t = .ok p ∧ c.Silent ∧ t.Silent ∧
      start.registry.ListensQuietly listener ∧ start.registry.filter = none ∧
      (deliveries (p.run call).2.trace).map (fun delivered => delivered.2.classification) =
        [.httpRequest, .httpRetry, .httpRequest, .httpResponse, .httpRetry] ∧
      (∃ last, attempts.getLast? = some last ∧ o.retry.Interrupted 2 last 5000) ∧
      (p.run call).2.now = 5000 ∧
      let filtered := p.run { call with registry := start.registry.setFilter (some only) }
      deliveries filtered.2.trace = (deliveries (p.run call).2.trace).filter
        (fun delivered => only.contains delivered.2.classification) ∧
      deliveries filtered.2.trace =
        [(0, listener.delivery .httpRetry
            (Utf8.encode "HTTP Retry attempt #1 will be made in 4000ms.")),
          (4007, listener.delivery .httpRetry
            (Utf8.encode "HTTP Retry attempt #2 will be made in 8000ms."))] := by
  intro o c t r listener start call attempts only
  have hp : o.assemble "blobs" "1.0" c t = .ok (o.pipeline "nimbus-rs-blobs/1.0" c t) := rfl
  have hc : c.Silent := Credential.silent_anonymous
  have ht : t.Silent := Transport.silent_scripted _
  have hquiet : start.registry.ListensQuietly listener :=
    ⟨rfl, Log.Callback.quiet_recording "log"⟩
  obtain ⟨agent, hagent, hlog, hend, _, hfilter⟩ :=
    log_is_account_of_attempts hp hc ht r start hquiet rfl
  obtain rfl : "nimbus-rs-blobs/1.0" = agent := Except.ok.inj hagent
  have hlength : attempts.length = 2 := by decide
  -- What the theorem asks of the last attempt is evaluated apart from the attempt itself.
  have hended : (attempts.getLast?.map fun x => (x.after.now, x.after.context.cancelAt)) =
      some (4007, some 5000) := by decide
  obtain ⟨last, hlast, hafter⟩ := Option.map_eq_some_iff.mp hended
  obtain ⟨hnow, hcancel⟩ := Prod.mk.inj hafter
  have hfinal : ((o.pipeline "nimbus-rs-blobs/1.0" c t).run call).2.now = 5000 := by decide
  refine ⟨_, hp, hc, ht, hquiet, rfl, by decide, ⟨last, hlast, ?_⟩, hfinal, ?_, by decide +kernel⟩
  · have hcut : ∃ k, o.retry.Interrupted attempts.length last k := by
      refine (hend last hlast).1.mp ?_
      rw [hnow]
      decide
    obtain ⟨k, hk⟩ := hcut
    obtain rfl : 5000 = k := Option.some.inj (hcancel.symm.trans hk.cancelAt)
    rw [← hlength]
    exact hk
  · have hempty : deliveries start.trace = [] := rfl
    rw [hempty, List.nil_append] at hlog
    rw [hfilter only, hempty, List.nil_append, hlog]

/-- A wait that is announced to last more than thirty years lasts less: the second attempt begins a
millisecond before the instant that was announced. -/
theorem announced_longer_than_lasting :
    let o : PipelineOptions := { retry := { maxRetries := 3, statusCodes := [503] } }
    let c : Credential Script := Credential.anonymous
    let t := Transport.scripted Script.nextReply
    let listener := Log.Callback.recording "log"
    let asking (wait : String) : Outcome :=
      .ok { status := 503, headers := ⟨[("retry-after-ms", wait)]⟩ }
    let call : Call Script := {
      context := { deadline := some 946080000003 }
      registry := { callback := some listener }
      peer := { replies := [{ outcome := asking "946080000001" }, { outcome := asking "2" }] }
      request := { method := .get, url := "/a", urlCapacity := 64, headerCapacity := 4 } }
    let attempts := o.attempts "nimbus-rs-core/1.0" c t call
    ∃ p, o.assemble "core" "1.0" c t = .ok p ∧
      (deliveries (p.run call).2.trace)[2]? = some (0, listener.delivery .httpRetry
        (Utf8.encode "HTTP Retry attempt #1 will be made in 946080000001ms.")) ∧
      (attempts.map fun x => (x.before.now, x.after.now)) =
        [(0, 0), (946080000000, 946080000000), (946080000002, 946080000002)] := by
  intro o c t listener asking call attempts
  have hp : o.assemble "core" "1.0" c t = .ok (o.pipeline "nimbus-rs-core/1.0" c t) := rfl
  exact ⟨_, hp, by decide +kernel, by decide⟩

end HttpPipeline
