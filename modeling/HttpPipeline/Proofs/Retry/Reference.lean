import HttpPipeline.Proofs.Context
import HttpPipeline.Proofs.Retry.Attempts
import HttpPipeline.Script.Basic

/-! # The retry rules

  How a retry policy goes about its attempts, said without the loop. Before a retry the policy
  means to wait as long as the response asks for, or else as long as the doubling leads to. It
  announces this wait, which then lasts thirty years at most. There are five reasons to stop, each
  about one attempt and the bounds of the call when it ended.

  A list of attempts follows the rules if its last attempt is the first one with a reason to stop,
  if each further attempt is made with the call that the one before it left, once the retry is
  announced, the request is back at its mark and the wait is over, and if the call ends with the
  outcome of the last attempt, as that left it or at a cancellation in the wait after it. Main
  statement: the attempts of the policy follow the rules, for every rest of the chain.
-/

namespace HttpPipeline

variable {σ : Type}

namespace RetryOptions

/-! ## §1. Waits -/

/-- How many milliseconds the wait after attempt number `i` is meant to last: as many as its
response asks for, and if there is no response or it does not ask, as many as the doubling leads
to. -/
def meantWait (o : RetryOptions) (i : Nat) (outcome : Outcome) : Nat :=
  (outcome.toOption.bind retryAfter?).getD (o.delay i)

/-- How many milliseconds it lasts if nothing cancels it: thirty years of 365 days at most. -/
def lastingWait (o : RetryOptions) (i : Nat) (outcome : Outcome) : Nat :=
  min (o.meantWait i outcome) (30 * 365 * 24 * 60 * 60 * 1000)

/-- The text that announces the retry after attempt number `i`. -/
def notice (o : RetryOptions) (i : Nat) (outcome : Outcome) : String :=
  "HTTP Retry attempt #" ++ toString i ++ " will be made in "
    ++ toString (o.meantWait i outcome) ++ "ms."

theorem waitAfter_eq_meantWait (o : RetryOptions) (i : Nat) (outcome : Outcome) :
    o.waitAfter i outcome = o.meantWait i outcome := by
  cases outcome with
  | ok response => rfl
  | error e => rfl

theorem wake_waitAfter (o : RetryOptions) (i : Nat) (outcome : Outcome) (now : Nat) :
    Clock.wake now (o.waitAfter i outcome) = now + o.lastingWait i outcome := by
  rw [waitAfter_eq_meantWait]
  rfl

theorem announced_eq_notice (o : RetryOptions) (i : Nat) (outcome : Outcome) (after : Call σ) :
    o.announced i outcome after = after.logText .httpRetry (o.notice i outcome) := by
  unfold announced
  rw [waitAfter_eq_meantWait]
  rfl

/-- Whether there is a wait after attempt number `i`, if the attempts are not used up. -/
structure Waits (o : RetryOptions) (i : Nat) (a : Attempt σ) : Prop where
  /-- A response has a status to retry after. -/
  answered : ∀ response, a.outcome = .ok response → response.status ∈ o.statusCodes
  /-- A failure is one in passing. -/
  failed : ∀ e, a.outcome = .error e → e.isRetryable = true
  /-- The call is not cancelled when the outcome arrives. -/
  pending : ∀ c, a.after.context.cancelAt = some c → a.after.now < c
  /-- The deadline is after the end of the wait that is meant. -/
  inTime : ∀ d, a.after.context.deadline = some d →
    (a.after.now : Int) + (o.meantWait i a.outcome : Int) < d

/-- The call that the attempt after attempt number `i` is made with. -/
def resumed (o : RetryOptions) (i : Nat) (a : Attempt σ) : Call σ :=
  { a.after.logText .httpRetry (o.notice i a.outcome) with
    now := a.after.now + o.lastingWait i a.outcome
    request := a.after.request.dropMarkedHeaders }

theorem shouldRetry_iff {o : RetryOptions} {outcome : Outcome} :
    o.shouldRetry outcome = true ↔
      (∀ response, outcome = .ok response → response.status ∈ o.statusCodes) ∧
        ∀ e, outcome = .error e → e.isRetryable = true := by
  cases outcome <;> simp [shouldRetry, isRetryableStatus]

theorem endsWithin_eq_false_iff {call : Call σ} {span : Nat} :
    call.endsWithin span = false ↔
      (∀ c, call.context.cancelAt = some c → call.now < c) ∧
        ∀ d, call.context.deadline = some d → (call.now : Int) + (span : Int) < d := by
  rw [← Context.isCancelled_eq_false_iff, ← Context.expiresWithin_eq_false_iff]
  simp [Session.endsWithin, Session.isCancelled]

/-- What the policy asks before a wait. -/
theorem waits_iff {o : RetryOptions} {i : Nat} {a : Attempt σ} :
    o.Waits i a ↔ o.shouldRetry a.outcome = true ∧
      a.after.endsWithin (o.waitAfter i a.outcome) = false := by
  rw [shouldRetry_iff, endsWithin_eq_false_iff, waitAfter_eq_meantWait]
  constructor
  · intro h
    exact ⟨⟨h.answered, h.failed⟩, h.pending, h.inTime⟩
  · intro ⟨⟨hanswered, hfailed⟩, hpending, hinTime⟩
    exact ⟨hanswered, hfailed, hpending, hinTime⟩

/-- **The verdict by the rules.** Without a wait the policy leaves at once. With one, it announces
the retry and leaves at a cancellation in the wait, or goes on when the wait is over. -/
theorem verdict_by_rules (o : RetryOptions) (i : Nat) (a : Attempt σ) :
    (¬ o.Waits i a ∧ o.verdict i a.outcome a.after = .leave a.after) ∨
    (o.Waits i a ∧ ∃ c, a.after.context.cancelAt = some c ∧
      c ≤ a.after.now + o.lastingWait i a.outcome ∧
      o.verdict i a.outcome a.after =
        .leave { a.after.logText .httpRetry (o.notice i a.outcome) with now := c }) ∨
    (o.Waits i a ∧
      (∀ c, a.after.context.cancelAt = some c → a.after.now + o.lastingWait i a.outcome < c) ∧
      o.verdict i a.outcome a.after = .again (o.resumed i a)) := by
  rcases o.verdict_cases i a.outcome a.after with
    ⟨hstay, hreason⟩ | ⟨hretry, hends, instant, ⟨hwait, hstay⟩ | ⟨hwait, hgo⟩⟩
  · refine .inl ⟨?_, hstay⟩
    intro hwaits
    -- With a wait, neither of the two reasons for leaving at once is there.
    obtain ⟨hretry, hends⟩ := waits_iff.mp hwaits
    rcases hreason with hreason | hreason
    · simp [hretry] at hreason
    · simp [hends] at hreason
  · have hwaits : o.Waits i a := waits_iff.mpr ⟨hretry, hends⟩
    obtain ⟨c, hc, hle, rfl⟩ := Context.waitUntil_eq_cancelled_iff.mp hwait
    -- The call was not cancelled when the wait began, so the wait ends at the cancellation.
    rw [Nat.max_eq_right (Nat.le_of_lt (hwaits.pending c hc)), announced_eq_notice] at hstay
    rw [wake_waitAfter] at hle
    exact .inr (.inl ⟨hwaits, c, hc, hle, hstay⟩)
  · obtain ⟨rfl, hlate⟩ := Context.waitUntil_eq_over_iff.mp hwait
    rw [wake_waitAfter, announced_eq_notice] at hgo
    rw [wake_waitAfter] at hlate
    exact .inr (.inr ⟨waits_iff.mpr ⟨hretry, hends⟩, hlate, hgo⟩)

/-! ## §2. Reasons to stop -/

/-- Why attempt number `i` is the last one. -/
inductive Stops (o : RetryOptions) (i : Nat) (a : Attempt σ) : Prop where
  /-- The attempts are used up. -/
  | usedUp (h : i = min (o.maxRetries.toNat + 1) (UInt32.size - 1))
  /-- It led to a response whose status is not one to retry after. -/
  | answered {response : Http.Response} (h : a.outcome = .ok response)
      (hs : response.status ∉ o.statusCodes)
  /-- It failed, and not in passing. -/
  | failed {e : Error} (h : a.outcome = .error e) (he : e.isRetryable = false)
  /-- The call is cancelled when the outcome arrives. -/
  | cancelled {c : Nat} (h : a.after.context.cancelAt = some c) (hc : c ≤ a.after.now)
  /-- The deadline is not after the end of the wait that is meant. -/
  | expires {d : Int} (h : a.after.context.deadline = some d)
      (hd : d ≤ (a.after.now : Int) + (o.meantWait i a.outcome : Int))
  /-- The call is cancelled during the wait. -/
  | interrupted {c : Nat} (h : a.after.context.cancelAt = some c) (hlt : a.after.now < c)
      (hc : c ≤ a.after.now + o.lastingWait i a.outcome)

/-- The reasons, as the policy comes to them: no attempt is left, there is no wait, or the call is
cancelled by the end of the wait. -/
theorem stops_iff {o : RetryOptions} {i : Nat} {a : Attempt σ} :
    o.Stops i a ↔ i = min (o.maxRetries.toNat + 1) (UInt32.size - 1) ∨ ¬ o.Waits i a ∨
      ∃ c, a.after.context.cancelAt = some c ∧
        c ≤ a.after.now + o.lastingWait i a.outcome := by
  constructor
  · intro hstop
    cases hstop with
    | usedUp h => exact .inl h
    | answered h hs => exact .inr (.inl fun hwaits => hs (hwaits.answered _ h))
    | failed h he =>
      refine .inr (.inl fun hwaits => ?_)
      simp [hwaits.failed _ h] at he
    | cancelled h hc => exact .inr (.inl fun hwaits => Nat.not_lt.mpr hc (hwaits.pending _ h))
    | expires h hd => exact .inr (.inl fun hwaits => Int.not_lt.mpr hd (hwaits.inTime _ h))
    | interrupted h _ hc => exact .inr (.inr ⟨_, h, hc⟩)
  · rintro (h | h | ⟨c, h, hc⟩)
    · exact .usedUp h
    · -- One of the four things that a wait needs is missing, and that is the reason.
      apply Classical.byContradiction
      intro hgo
      apply h
      refine ⟨fun response h => ?_, fun e h => ?_, fun c h => ?_, fun d h => ?_⟩
      · exact Decidable.byContradiction fun hs => hgo (.answered h hs)
      · exact eq_true_of_ne_false fun he => hgo (.failed h he)
      · exact Nat.lt_of_not_le fun hc => hgo (.cancelled h hc)
      · exact Int.lt_of_not_ge fun hd => hgo (.expires h hd)
    · by_cases hlt : a.after.now < c
      · exact .interrupted h hlt hc
      · exact .cancelled h (Nat.le_of_not_lt hlt)

/-- Whether the call is cancelled at the instant `c`, in the wait after attempt number `i`. -/
structure Interrupted (o : RetryOptions) (i : Nat) (a : Attempt σ) (c : Nat) : Prop where
  /-- Another attempt is allowed. -/
  left : i < min (o.maxRetries.toNat + 1) (UInt32.size - 1)
  /-- There is a wait. -/
  waits : o.Waits i a
  /-- The call is cancelled then. -/
  cancelAt : a.after.context.cancelAt = some c
  /-- The wait would not be over before. -/
  lasting : c ≤ a.after.now + o.lastingWait i a.outcome

/-- Whether a call ends like this after attempt number `i`, its last one. -/
structure EndsWith (o : RetryOptions) (i : Nat) (a : Attempt σ) (result : Outcome × Call σ) :
    Prop where
  /-- The outcome of the attempt is passed on. -/
  passesOn : result.1 = a.outcome
  /-- The call is left as the attempt left it, if it is not cancelled in the wait after it. -/
  settled : (∀ c, ¬ o.Interrupted i a c) → result.2 = a.after
  /-- If it is, then the retry is announced, and the call ends at the cancellation. -/
  interrupted : ∀ c, o.Interrupted i a c →
    result.2 = { a.after.logText .httpRetry (o.notice i a.outcome) with now := c }

/-- A policy that leaves although it may go on has a reason, and leaves the call by the rules. -/
theorem stops_of_leave {o : RetryOptions} {i : Nat} {a : Attempt σ} {final : Call σ}
    (hi : i < o.maxAttempts) (hv : o.verdict i a.outcome a.after = .leave final) :
    o.Stops i a ∧ o.EndsWith i a (a.outcome, final) := by
  rcases o.verdict_by_rules i a with
    ⟨hno, hstay⟩ | ⟨hwaits, c, hc, hle, hstay⟩ | ⟨_, _, hgo⟩
  · cases hstay.symm.trans hv
    exact ⟨stops_iff.mpr (.inr (.inl hno)), rfl, fun _ => rfl, fun c h => absurd h.waits hno⟩
  · cases hstay.symm.trans hv
    refine ⟨stops_iff.mpr (.inr (.inr ⟨c, hc, hle⟩)), rfl, ?_, ?_⟩
    · intro hnot
      exact absurd ⟨hi, hwaits, hc, hle⟩ (hnot c)
    · -- A call is cancelled at one instant only.
      intro c' h
      obtain rfl : c = c' := Option.some.inj (hc.symm.trans h.cancelAt)
      rfl
  · cases hgo.symm.trans hv

/-- A policy that goes on has no reason to stop, and goes on by the rules. -/
theorem not_stops_of_again {o : RetryOptions} {i : Nat} {a : Attempt σ} {next : Call σ}
    (hi : i < o.maxAttempts) (hv : o.verdict i a.outcome a.after = .again next) :
    ¬ o.Stops i a ∧ next = o.resumed i a := by
  rcases o.verdict_by_rules i a with ⟨_, hstay⟩ | ⟨_, c, _, _, hstay⟩ | ⟨hwaits, hlate, hgo⟩
  · cases hstay.symm.trans hv
  · cases hstay.symm.trans hv
  · cases hgo.symm.trans hv
    refine ⟨?_, rfl⟩
    intro hstop
    rcases stops_iff.mp hstop with h | hno | ⟨c, hc, hle⟩
    · exact Nat.ne_of_lt hi h
    · exact hno hwaits
    · exact Nat.not_lt.mpr hle (hlate c hc)

/-- When the attempts are used up, the policy leaves the call as it is. -/
theorem endsWith_of_usedUp {o : RetryOptions} {i : Nat} {a : Attempt σ}
    (hi : i = o.maxAttempts) : o.EndsWith i a (a.outcome, a.after) :=
  ⟨rfl, fun _ => rfl, fun _ h => absurd hi (Nat.ne_of_lt h.left)⟩

/-! ## §3. The rules -/

/-- Attempts, counted from number `i` on, and how the call ends, follow the retry rules. -/
structure Follows (o : RetryOptions) (rest : Exchange σ) (i : Nat) (start : Call σ)
    (attempts : List (Attempt σ)) (result : Outcome × Call σ) : Prop where
  /-- The first attempt is made at once. -/
  first : attempts[0]? = some (Attempt.of rest start)
  /-- Each further attempt is made with the call that the one before it left, announced, back at
  its mark and after the wait. -/
  further : ∀ n a b, attempts[n]? = some a → attempts[n + 1]? = some b →
    b = Attempt.of rest (o.resumed (i + n) a)
  /-- The last attempt is the first one with a reason to stop. -/
  stops : ∀ n a, attempts[n]? = some a → (o.Stops (i + n) a ↔ n + 1 = attempts.length)
  /-- The call ends by the rules after the last attempt. -/
  ends : ∃ last, attempts.getLast? = some last ∧
    o.EndsWith (i + attempts.length - 1) last result
  /-- The number of the last attempt fits into 32 bits. -/
  counts : i + attempts.length ≤ UInt32.size

theorem Follows.outcome_last {o : RetryOptions} {rest : Exchange σ} {i : Nat} {start : Call σ}
    {attempts : List (Attempt σ)} {result : Outcome × Call σ}
    (h : o.Follows rest i start attempts result) :
    attempts.getLast?.map Attempt.outcome = some result.1 := by
  obtain ⟨last, hlast, hend⟩ := h.ends
  rw [hlast, hend.passesOn]
  rfl

/-- An attempt with a reason to stop follows the rules alone. -/
theorem Follows.single {o : RetryOptions} {rest : Exchange σ} {i : Nat} {start : Call σ}
    {result : Outcome × Call σ} (hstop : o.Stops i (Attempt.of rest start))
    (hend : o.EndsWith i (Attempt.of rest start) result) (hi : i < UInt32.size) :
    o.Follows rest i start [Attempt.of rest start] result where
  first := rfl
  further n a b _ hb := by simp at hb
  stops n a ha := by
    cases n with
    | zero =>
      obtain rfl : Attempt.of rest start = a := by simpa using ha
      simp [hstop]
    | succ n => simp at ha
  ends := ⟨_, rfl, hend⟩
  counts := hi

/-- An attempt without a reason to stop follows the rules before attempts that do and begin
with the call that it leads to. -/
theorem Follows.cons {o : RetryOptions} {rest : Exchange σ} {i : Nat} {start : Call σ}
    {attempts : List (Attempt σ)} {result : Outcome × Call σ}
    (hgo : ¬ o.Stops i (Attempt.of rest start))
    (h : o.Follows rest (i + 1) (o.resumed i (Attempt.of rest start)) attempts result) :
    o.Follows rest i start (Attempt.of rest start :: attempts) result where
  first := rfl
  further n a b ha hb := by
    cases n with
    | zero =>
      obtain rfl : Attempt.of rest start = a := by simpa using ha
      -- The second attempt is the first of the others.
      simpa [h.first, eq_comm] using hb
    | succ n =>
      rw [show i + (n + 1) = i + 1 + n by omega]
      exact h.further n a b (by simpa using ha) (by simpa using hb)
  stops n a ha := by
    cases n with
    | zero =>
      obtain rfl : Attempt.of rest start = a := by simpa using ha
      have hne : attempts ≠ [] := fun hnil => by simpa [hnil] using h.first
      simp [hgo, hne]
    | succ n =>
      have := h.stops n a (by simpa using ha)
      rw [show i + (n + 1) = i + 1 + n by omega]
      simpa using this
  ends := by
    obtain ⟨last, hlast, hend⟩ := h.ends
    refine ⟨last, by simp [List.getLast?_cons, hlast], ?_⟩
    rw [List.length_cons, show i + (attempts.length + 1) - 1 = i + 1 + attempts.length - 1 by omega]
    exact hend
  counts := by
    have := h.counts
    simp only [List.length_cons]
    omega

/-- The loop follows the rules from any attempt on, if as many are left as it may still
make. -/
theorem attemptsFrom_follow (o : RetryOptions) (rest : Exchange σ) (left i : Nat)
    (call : Call σ) (hi : i + left = o.maxAttempts) :
    o.Follows rest i call (o.attemptsFrom rest left i call)
      (o.attemptFrom rest left i call) := by
  have hmax : o.maxAttempts < UInt32.size :=
    Nat.lt_of_le_of_lt (Nat.min_le_right _ _) (by decide)
  -- `i + left` is kept: it is the number of the last attempt there may be.
  induction left generalizing i call with
  | zero => exact Follows.single (.usedUp hi) (endsWith_of_usedUp hi) (by omega)
  | succ left ih =>
    have hallowed : i < o.maxAttempts := by omega
    rw [attemptFrom_succ, attemptsFrom]
    cases hv : o.verdict i (rest call).1 (rest call).2 with
    | leave final =>
      obtain ⟨hstop, hend⟩ := stops_of_leave (a := Attempt.of rest call) hallowed hv
      exact Follows.single hstop hend (by omega)
    | again next =>
      obtain ⟨hgo, rfl⟩ := not_stops_of_again (a := Attempt.of rest call) hallowed hv
      exact Follows.cons hgo (ih (i + 1) _ (by omega))

/-- **The attempts of a retry policy follow the retry rules**, whatever the rest of the chain
does with a call, its clock and its bounds. The attempts are what the rest of the chain notes of
its runs, in a run of the policy that is the same but for the journal. -/
theorem attempts_follow_rules (o : RetryOptions) (next : Next σ) (call : Call σ) :
    let run := (Policy.retry o).process next call
    let attempts := o.attempts next call
    (Policy.retry o).process next.journaled (call.journaled []) =
        (run.1, run.2.journaled attempts) ∧
      o.Follows next.run 1 { call with request := call.request.markHeaders } attempts run := by
  intro run attempts
  have hone := o.one_le_maxAttempts
  refine ⟨o.process_journaled next call, ?_⟩
  show o.Follows next.run 1 _ (o.attempts next call) _
  rw [attempts_eq]
  exact o.attemptsFrom_follow next.run (o.maxAttempts - 1) 1 _ (by omega)

/-- A wait of more than thirty years is over before it was meant to be, although the clock can
represent the instant at which it was meant to be over, and the deadline is later still. The second
attempt begins a millisecond early here, and this makes time for a third one. -/
theorem long_wait_over_early :
    let o : RetryOptions := {
      maxRetries := 3, retryDelay := 5, maxRetryDelay := 10, statusCodes := [503] }
    let asking (wait : String) : Outcome :=
      .ok { status := 503, headers := ⟨[("retry-after-ms", wait)]⟩ }
    let next := Next.ofChain [] (Transport.scripted Script.nextReply)
    let call : Call Script := {
      context := { deadline := some 946080000003 }
      peer := { replies := [{ outcome := asking "946080000001" }, { outcome := asking "2" }] }
      request := { method := .get, url := "/a", urlCapacity := 64, headerCapacity := 4 } }
    let attempts := o.attempts next call
    attempts.length = 3 ∧ ∃ a b, attempts[0]? = some a ∧ attempts[1]? = some b ∧
      o.meantWait 1 a.outcome = 946080000001 ∧
      a.after.now + o.meantWait 1 a.outcome < Clock.limit ∧
      b.before.now < a.after.now + o.meantWait 1 a.outcome := by
  intro o asking next call attempts
  -- The instants are evaluated apart: the calls as a whole are too large to compare.
  have hfirst : (attempts[0]?.map fun a => (a.after.now, o.meantWait 1 a.outcome)) =
      some (0, 946080000001) := by decide
  have hsecond : (attempts[1]?.map fun b => b.before.now) = some 946080000000 := by decide
  obtain ⟨a, ha, hmeant⟩ := Option.map_eq_some_iff.mp hfirst
  obtain ⟨b, hb, hbegun⟩ := Option.map_eq_some_iff.mp hsecond
  obtain ⟨hended, hwait⟩ := Prod.mk.inj hmeant
  refine ⟨by decide, a, b, ha, hb, hwait, ?_, ?_⟩
  · rw [hended, hwait]
    decide
  · rw [hended, hwait, hbegun]
    decide

end RetryOptions

end HttpPipeline
