import HttpPipeline.Policy.Retry
import HttpPipeline.Proofs.Journal

/-! # The attempts of a retry policy

  A retry policy makes one attempt after another, and after each it leaves or goes on. `verdict`
  is that decision, for a single attempt; the loop is nothing but a verdict after each attempt,
  and what the loop keeps follows from what one verdict keeps. The attempts themselves are read
  off the journal of the rest of the chain.
-/

namespace HttpPipeline

variable {σ ε : Type}

/-! ## §1. Verdicts -/

/-- How a retry policy goes on after an attempt. -/
inductive Verdict (σ : Type) where
  /-- The policy is done, and the call stands like this. -/
  | leave (final : Call σ)
  /-- Another attempt is made, beginning with this call. -/
  | again (next : Call σ)

/-- The verdict with a journal in the call. -/
def Verdict.journaled (entries : List ε) : Verdict σ → Verdict (Journaled σ ε)
  | .leave final => .leave (final.journaled entries)
  | .again next => .again (next.journaled entries)

namespace RetryOptions

/-- The call once the retry after attempt number `i` has been logged. -/
def announced (o : RetryOptions) (i : Nat) (outcome : Outcome) (after : Call σ) : Call σ :=
  after.logText .httpRetry (Log.retryMessage i (o.waitAfter i outcome))

/-- The verdict on attempt number `i`, when more attempts are allowed. -/
def verdict (o : RetryOptions) (i : Nat) (outcome : Outcome) (after : Call σ) : Verdict σ :=
  if o.shouldRetry outcome then
    if after.endsWithin (o.waitAfter i outcome) then .leave after
    else
      match after.context.wait after.now (o.waitAfter i outcome) with
      | .cancelled instant => .leave { o.announced i outcome after with now := instant }
      | .over instant =>
        .again { o.announced i outcome after with
          now := instant
          request := after.request.dropMarkedHeaders }
  else .leave after

/-- **Everything a verdict can be.** The policy leaves at once, or it announces a retry and
waits, and then leaves or goes on, depending on how the wait ends. -/
theorem verdict_cases (o : RetryOptions) (i : Nat) (outcome : Outcome) (after : Call σ) :
    (o.verdict i outcome after = .leave after ∧
      (o.shouldRetry outcome = false ∨ after.endsWithin (o.waitAfter i outcome) = true)) ∨
    (o.shouldRetry outcome = true ∧ after.endsWithin (o.waitAfter i outcome) = false ∧
      ∃ instant,
        (after.context.wait after.now (o.waitAfter i outcome) = .cancelled instant ∧
          o.verdict i outcome after =
            .leave { o.announced i outcome after with now := instant }) ∨
        (after.context.wait after.now (o.waitAfter i outcome) = .over instant ∧
          o.verdict i outcome after =
            .again { o.announced i outcome after with
              now := instant
              request := after.request.dropMarkedHeaders })) := by
  unfold verdict
  cases hretry : o.shouldRetry outcome with
  | false => simp
  | true =>
    cases hends : after.endsWithin (o.waitAfter i outcome) with
    | true => simp
    | false =>
      right
      match hwait : after.context.wait after.now (o.waitAfter i outcome) with
      | .over instant => exact ⟨rfl, rfl, instant, .inr ⟨rfl, by simp⟩⟩
      | .cancelled instant => exact ⟨rfl, rfl, instant, .inl ⟨rfl, by simp⟩⟩

/-- A policy that leaves changes at most the clock and the log. -/
theorem frame_of_leave {o : RetryOptions} {i : Nat} {outcome : Outcome} {after final : Call σ}
    (hv : o.verdict i outcome after = .leave final) :
    final.peer = after.peer ∧ final.context = after.context ∧
      final.request = after.request := by
  rcases o.verdict_cases i outcome after with
    ⟨hl, _⟩ | ⟨_, _, instant, ⟨_, hl⟩ | ⟨_, hg⟩⟩
  · cases hl.symm.trans hv
    exact ⟨rfl, rfl, rfl⟩
  · cases hl.symm.trans hv
    exact ⟨rfl, rfl, rfl⟩
  · cases hg.symm.trans hv

/-- A policy that goes on also takes the request back to its mark. -/
theorem frame_of_again {o : RetryOptions} {i : Nat} {outcome : Outcome} {after next : Call σ}
    (hv : o.verdict i outcome after = .again next) :
    next.peer = after.peer ∧ next.context = after.context ∧
      next.request = after.request.dropMarkedHeaders := by
  rcases o.verdict_cases i outcome after with
    ⟨hl, _⟩ | ⟨_, _, instant, ⟨_, hl⟩ | ⟨_, hg⟩⟩
  · cases hl.symm.trans hv
  · cases hl.symm.trans hv
  · cases hg.symm.trans hv
    exact ⟨rfl, rfl, rfl⟩

/-- A journal does not change the verdict. -/
theorem verdict_journaled (o : RetryOptions) (i : Nat) (outcome : Outcome) (after : Call σ)
    (entries : List ε) :
    o.verdict i outcome (after.journaled entries) =
      (o.verdict i outcome after).journaled entries := by
  have hends : (after.journaled entries).endsWithin = after.endsWithin := rfl
  have hwait : (after.journaled entries).context.wait (after.journaled entries).now =
      after.context.wait after.now := rfl
  unfold verdict
  rw [hends, hwait]
  split
  · split
    · rfl
    · split <;> rfl
  · rfl

/-! ## §2. The loop -/

/-- One turn of the loop is an attempt and the verdict on it. -/
theorem attemptFrom_succ (o : RetryOptions) (rest : Exchange σ) (left i : Nat)
    (call : Call σ) :
    o.attemptFrom rest (left + 1) i call =
      match o.verdict i (rest call).1 (rest call).2 with
      | .leave final => ((rest call).1, final)
      | .again next => o.attemptFrom rest left (i + 1) next := by
  rcases hrest : rest call with ⟨outcome, after⟩
  -- The loop asks what the verdict asks, in the same order.
  simp only [attemptFrom, hrest]
  rcases o.verdict_cases i outcome after with
    ⟨hv, hretry | hends⟩ | ⟨hretry, hends, instant, ⟨hwait, hv⟩ | ⟨hwait, hv⟩⟩
  · simp [hv, hretry]
  · simp [hv, hends]
  · simp [hv, hretry, hends, hwait, announced]
  · simp [hv, hretry, hends, hwait, announced]

/-- After an outcome that calls for no retry, the loop ends. -/
theorem attemptFrom_of_shouldRetry_eq_false {o : RetryOptions} {rest : Exchange σ} {call : Call σ}
    (h : o.shouldRetry (rest call).1 = false) (left i : Nat) :
    o.attemptFrom rest left i call = rest call := by
  cases left with
  | zero => rfl
  | succ left =>
    have hv : o.verdict i (rest call).1 (rest call).2 = .leave (rest call).2 := by
      simp [verdict, h]
    rw [attemptFrom_succ, hv]

/-- **Induction on the attempts.** What holds of the last attempt, of an attempt that the policy
leaves after, and of an attempt before others of which it holds, holds of every run of the
loop. -/
theorem attemptFrom_induction (o : RetryOptions) (rest : Exchange σ)
    {motive : Nat → Call σ → Outcome × Call σ → Prop}
    (last : ∀ i call, motive i call (rest call))
    (leave : ∀ i call final, o.verdict i (rest call).1 (rest call).2 = .leave final →
      motive i call ((rest call).1, final))
    (again : ∀ i call next result, o.verdict i (rest call).1 (rest call).2 = .again next →
      motive (i + 1) next result → motive i call result) :
    ∀ left i call, motive i call (o.attemptFrom rest left i call) := by
  intro left
  induction left with
  | zero => exact fun i call => last i call
  | succ left ih =>
    intro i call
    rw [attemptFrom_succ]
    cases hv : o.verdict i (rest call).1 (rest call).2 with
    | leave final => exact leave i call final hv
    | again next => exact again i call next _ hv (ih (i + 1) next)

/-! ## §3. The attempts -/

/-- The attempts of a policy at a chain, as the journal of the chain has them. -/
def attempts (o : RetryOptions) (next : Next σ) (call : Call σ) : List (Attempt σ) :=
  ((Policy.retry o).process next.journaled (call.journaled [])).2.peer.entries

/-- The attempts of the loop, from number `i` on. -/
def attemptsFrom (o : RetryOptions) (rest : Exchange σ) :
    (left i : Nat) → Call σ → List (Attempt σ)
  | 0, _, call => [Attempt.of rest call]
  | left + 1, i, call =>
    Attempt.of rest call ::
      match o.verdict i (rest call).1 (rest call).2 with
      | .leave _ => []
      | .again next => attemptsFrom o rest left (i + 1) next

theorem eq_of_mem_attemptsFrom {o : RetryOptions} {rest : Exchange σ} {left i : Nat}
    {call : Call σ} {a : Attempt σ} (ha : a ∈ o.attemptsFrom rest left i call) :
    a = Attempt.of rest a.before := by
  induction left generalizing i call with
  | zero =>
    obtain rfl := List.mem_singleton.mp ha
    rfl
  | succ left ih =>
    rw [attemptsFrom] at ha
    rcases List.mem_cons.mp ha with rfl | ha
    · rfl
    · split at ha
      · cases ha
      · exact ih ha

/-- What the rest of the chain writes into a journal in each of its runs, the loop writes for each
attempt, in order. -/
theorem attemptFrom_writes (o : RetryOptions) {journaled : Exchange (Journaled σ ε)}
    {rest : Exchange σ} {written : Call σ → List ε} (h : journaled.Writes rest written)
    (left i : Nat) :
    Exchange.Writes (o.attemptFrom journaled left i) (o.attemptFrom rest left i) fun call =>
      (o.attemptsFrom rest left i call).flatMap fun x => written x.before := by
  induction left generalizing i with
  | zero =>
    intro call entries
    simpa [attemptFrom, attemptsFrom, Attempt.of] using h call entries
  | succ left ih =>
    intro call entries
    -- The verdict does not look into the journal, so both loops take the same turn.
    rw [attemptFrom_succ, attemptFrom_succ, h call entries, verdict_journaled]
    simp only [attemptsFrom]
    cases o.verdict i (rest call).1 (rest call).2 with
    | leave final => simp [Verdict.journaled, Attempt.of]
    | again next =>
      refine (ih (i + 1) next (entries ++ written call)).trans ?_
      simp [Attempt.of]

/-- The journal of the rest of the chain lists the attempts in order, and keeping it changes
nothing else. -/
theorem attemptFrom_journaled (o : RetryOptions) (rest : Exchange σ) (left i : Nat)
    (call : Call (Journaled σ (Attempt σ))) :
    o.attemptFrom (Exchange.journaled rest) left i call =
      ((o.attemptFrom rest left i call.plain).1,
        (o.attemptFrom rest left i call.plain).2.journaled
          (call.peer.entries ++ o.attemptsFrom rest left i call.plain)) := by
  have hwrites : (Exchange.journaled rest).Writes rest fun call => [Attempt.of rest call] :=
    fun _ _ => rfl
  have hattempts : ((o.attemptsFrom rest left i call.plain).flatMap fun x =>
      [Attempt.of rest x.before]) = o.attemptsFrom rest left i call.plain := by
    rw [← List.map_eq_flatMap]
    refine (List.map_congr_left fun x hx => ?_).trans (List.map_id _)
    exact (eq_of_mem_attemptsFrom hx).symm
  have hloop := o.attemptFrom_writes hwrites left i call.plain call.peer.entries
  simp only [hattempts] at hloop
  exact hloop

/-- A policy does at a journaled chain what it does at the chain, and its attempts are the
journal. -/
theorem process_journaled (o : RetryOptions) (next : Next σ) (call : Call σ) :
    (Policy.retry o).process next.journaled (call.journaled []) =
      (((Policy.retry o).process next call).1,
        ((Policy.retry o).process next call).2.journaled (o.attempts next call)) := by
  simp only [attempts, Policy.retry, Next.journaled, attemptFrom_journaled]
  rfl

theorem attempts_eq (o : RetryOptions) (next : Next σ) (call : Call σ) :
    o.attempts next call =
      o.attemptsFrom next.run (o.maxAttempts - 1) 1
        { call with request := call.request.markHeaders } := by
  simp only [attempts, Policy.retry, Next.journaled, attemptFrom_journaled]
  rfl

/-- An attempt after which the policy would leave at once, whatever its number, is the last one,
and the loop ends as it did. -/
theorem last_of_leaves {o : RetryOptions} {rest : Exchange σ} {left i : Nat} {call : Call σ}
    {a : Attempt σ} (ha : a ∈ o.attemptsFrom rest left i call)
    (hleave : ∀ n, o.verdict n a.outcome a.after = .leave a.after) :
    (o.attemptsFrom rest left i call).getLast? = some a ∧
      o.attemptFrom rest left i call = (a.outcome, a.after) := by
  induction left generalizing i call with
  | zero =>
    obtain rfl := List.mem_singleton.mp ha
    exact ⟨rfl, rfl⟩
  | succ left ih =>
    rw [attemptsFrom] at ha ⊢
    rw [attemptFrom_succ]
    rcases List.mem_cons.mp ha with rfl | ha
    · rw [show o.verdict i (rest call).1 (rest call).2 = .leave (rest call).2 from hleave i]
      exact ⟨rfl, rfl⟩
    · -- The policy has gone on here, since `a` is a later attempt.
      cases hv : o.verdict i (rest call).1 (rest call).2 with
      | leave final => simp [hv] at ha
      | again next =>
        simp only [hv] at ha
        obtain ⟨hlast, hloop⟩ := ih ha
        refine ⟨?_, hloop⟩
        rw [List.getLast?_cons, hlast]
        rfl

end RetryOptions

end HttpPipeline
