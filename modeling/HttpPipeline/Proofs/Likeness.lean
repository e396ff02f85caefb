import HttpPipeline.Proofs.Assembly
import Mathlib.Data.List.Forall2

/-! # Two runs side by side

  A statement about two runs of the same pipeline compares them call by call. Which calls and
  which responses count as alike is a parameter here, with laws that say what the links of the
  pipeline need: like calls are at the same instant under the same context, like responses lead to
  the same decision on a retry, and what a policy does to a call by itself keeps calls alike. From
  the laws follows that the pipeline keeps calls alike if its two peers do.
-/

namespace HttpPipeline

variable {σ τ : Type}

/-! ## §1. Laws -/

/-- Results that are the same failure, or values that are related. -/
inductive Alike {α β : Type} (R : α → β → Prop) : Except Error α → Except Error β → Prop where
  | error (e : Error) : Alike R (.error e) (.error e)
  | ok {a : α} {b : β} (h : R a b) : Alike R (.ok a) (.ok b)

theorem Alike.refl {α : Type} {R : α → α → Prop} (h : ∀ a, R a a) (x : Except Error α) :
    Alike R x x := by
  cases x with
  | error e => exact .error e
  | ok a => exact .ok (h a)

theorem Alike.of_map_eq {α γ : Type} {f : α → γ} {x y : Except Error α}
    (h : x.map f = y.map f) : Alike (fun a b => f a = f b) x y := by
  cases x with
  | error e =>
    cases y with
    | error e' =>
      obtain rfl : e = e' := Except.error.inj h
      exact .error e
    | ok b => cases h
  | ok a =>
    cases y with
    | error e => cases h
    | ok b => exact .ok (Except.ok.inj h)

theorem Alike.eq {α : Type} {x y : Except Error α} (h : Alike (· = ·) x y) : x = y := by
  cases h with
  | error e => rfl
  | ok h => rw [h]

theorem Alike.imp {α β : Type} {R S : α → β → Prop} {x : Except Error α} {y : Except Error β}
    (h : Alike R x y) (himp : ∀ a b, R a b → S a b) : Alike S x y := by
  cases h with
  | error e => exact .error e
  | ok h => exact .ok (himp _ _ h)

/-- Which calls and responses of two runs count as alike. -/
structure Likeness (σ τ : Type) where
  calls : Call σ → Call τ → Prop
  responses : Http.Response → Http.Response → Prop
  -- What the decisions of the retry policy are made of is the same.
  now : ∀ {a b}, calls a b → a.now = b.now
  context : ∀ {a b}, calls a b → a.context = b.context
  status : ∀ {x y}, responses x y → x.status = y.status
  retryAfter : ∀ {x y}, responses x y → retryAfter? x = retryAfter? y
  -- Time passes, and the request goes back and forth, in both at once.
  wait : ∀ {a b}, calls a b → ∀ now, calls { a with now } { b with now }
  mark : ∀ {a b}, calls a b →
    calls { a with request := a.request.markHeaders }
      { b with request := b.request.markHeaders }
  unmark : ∀ {a b}, calls a b →
    calls { a with request := a.request.dropMarkedHeaders }
      { b with request := b.request.dropMarkedHeaders }
  -- There is room for a header or a query parameter in both or in neither.
  header : ∀ {a b}, calls a b → ∀ name value,
    Alike (fun r s => calls { a with request := r } { b with request := s })
      (a.request.appendHeader name value) (b.request.appendHeader name value)
  query : ∀ {a b}, calls a b → ∀ name value,
    Alike (fun r s => calls { a with request := r } { b with request := s })
      (a.request.setQueryParameter name value) (b.request.setQueryParameter name value)
  -- What is logged of like calls and responses leaves them alike.
  logRetry : ∀ {a b}, calls a b → ∀ message,
    calls (a.logText .httpRetry message) (b.logText .httpRetry message)
  logRequest : ∀ {a b}, calls a b →
    calls (a.logText .httpRequest (Log.requestMessage a.request))
      (b.logText .httpRequest (Log.requestMessage b.request))
  logResponse : ∀ {a b x y}, calls a b → responses x y → ∀ elapsed,
    calls (a.logText .httpResponse (Log.responseMessage x elapsed a.request))
      (b.logText .httpResponse (Log.responseMessage y elapsed b.request))

namespace Likeness

/-- Results of runs that are alike. -/
def Results (L : Likeness σ τ) (x : Outcome × Call σ) (y : Outcome × Call τ) : Prop :=
  Alike L.responses x.1 y.1 ∧ L.calls x.2 y.2

/-- Whether two exchanges keep calls alike. -/
def Links (L : Likeness σ τ) (f : Exchange σ) (g : Exchange τ) : Prop :=
  ∀ a b, L.calls a b → L.Results (f a) (g b)

/-- Whether two credentials keep calls alike. -/
def Authorizes (L : Likeness σ τ) (c : Credential σ) (d : Credential τ) : Prop :=
  ∀ a b, L.calls a b →
    (c.authorize a.request a.toSession).outcome = (d.authorize b.request b.toSession).outcome ∧
      L.calls (c.applied a) (d.applied b)

variable (L : Likeness σ τ)

/-! ## §2. Links -/

/-- After a change to the request that is possible in both calls or in neither. -/
theorem results_withRequest {f : Exchange σ} {g : Exchange τ} (h : L.Links f g) {a : Call σ}
    {b : Call τ} (hab : L.calls a b) {x y : Except Error Request}
    (hxy : Alike (fun r s => L.calls { a with request := r } { b with request := s }) x y) :
    L.Results (a.withRequest x f) (b.withRequest y g) := by
  cases hxy with
  | error e => exact ⟨.error e, hab⟩
  | ok hcalls => exact h _ _ hcalls

/-- What is logged of like results keeps them alike. -/
theorem results_reported {x : Outcome × Call σ} {y : Outcome × Call τ} (h : L.Results x y)
    (started : Nat) : L.Results (reported started x) (reported started y) := by
  obtain ⟨outcome, a⟩ := x
  obtain ⟨outcome', b⟩ := y
  obtain ⟨houtcome, hcalls⟩ := h
  have hnow : a.now = b.now := L.now hcalls
  cases houtcome with
  | error e => exact ⟨.error e, hcalls⟩
  | ok hresponse =>
    refine ⟨.ok hresponse, ?_⟩
    -- Both responses took as long, since both attempts began and ended at the same instants.
    show L.calls (a.logText .httpResponse _) (b.logText .httpResponse _)
    rw [← hnow]
    exact L.logResponse hcalls hresponse (a.now - started)

/-- Credentials that keep calls alike hand like calls to the transport, or both fail. -/
theorem alike_handed {c : Credential σ} {d : Credential τ} (hcredential : L.Authorizes c d)
    {a : Call σ} {b : Call τ} (hab : L.calls a b) :
    Alike L.calls (c.handed a) (d.handed b) := by
  obtain ⟨houtcome, happlied⟩ := hcredential a b hab
  unfold Credential.handed
  rw [houtcome]
  cases (d.authorize b.request b.toSession).outcome with
  | error e => exact .error e
  | ok _ => exact .ok (L.logRequest happlied)

/-- An attempt keeps calls alike. -/
theorem links_attempting {c : Credential σ} {d : Credential τ} (hcredential : L.Authorizes c d)
    {t : Transport σ} {u : Transport τ} (htransport : L.Links t.exchange u.exchange) :
    L.Links (Next.attempting c t).run (Next.attempting d u).run := by
  intro a b hab
  have happlied := (hcredential a b hab).2
  have hhanded := L.alike_handed hcredential hab
  rw [run_attempting, run_attempting]
  revert hhanded
  generalize c.handed a = x
  generalize d.handed b = y
  intro hhanded
  cases hhanded with
  | error e => exact ⟨.error e, happlied⟩
  | ok hcalls =>
    have hnow := L.now hcalls
    simp only
    rw [hnow]
    exact L.results_reported (htransport _ _ hcalls) _

/-- Like outcomes are followed by a retry or not, and after the same wait. -/
theorem decision_eq {x y : Outcome} (h : Alike L.responses x y) (o : RetryOptions) (i : Nat) :
    o.shouldRetry x = o.shouldRetry y ∧ o.waitAfter i x = o.waitAfter i y := by
  cases h with
  | error e => exact ⟨rfl, rfl⟩
  | ok hresponse =>
    simp [RetryOptions.shouldRetry, RetryOptions.waitAfter, L.status hresponse,
      L.retryAfter hresponse]

/-- Whether two verdicts are the same way to go on, with like calls. -/
inductive Verdicts : Verdict σ → Verdict τ → Prop where
  | leave {a : Call σ} {b : Call τ} (h : L.calls a b) : Verdicts (.leave a) (.leave b)
  | again {a : Call σ} {b : Call τ} (h : L.calls a b) : Verdicts (.again a) (.again b)

/-- The verdicts on like attempts are alike. -/
theorem verdicts {x y : Outcome} (hxy : Alike L.responses x y) {a : Call σ} {b : Call τ}
    (hab : L.calls a b) (o : RetryOptions) (i : Nat) :
    L.Verdicts (o.verdict i x a) (o.verdict i y b) := by
  obtain ⟨hretry, hwait⟩ := L.decision_eq hxy o i
  have hnow := L.now hab
  have hcontext := L.context hab
  have hannounced : L.calls (o.announced i x a) (o.announced i y b) := by
    unfold RetryOptions.announced
    rw [hwait]
    exact L.logRetry hab _
  have hends : a.endsWithin (o.waitAfter i x) = b.endsWithin (o.waitAfter i y) := by
    unfold Session.endsWithin Session.isCancelled
    rw [hnow, hcontext, hwait]
  unfold RetryOptions.verdict
  rw [hretry, hends, hcontext, hnow, hwait]
  split
  · split
    · exact .leave hab
    · split
      · exact .leave (L.wait hannounced _)
      · exact .again (L.unmark (L.wait hannounced _))
  · exact .leave hab

/-- The loop of a retry policy keeps calls alike, if the rest of the chain does. -/
theorem links_attemptFrom (o : RetryOptions) {f : Exchange σ} {g : Exchange τ}
    (h : L.Links f g) (left i : Nat) :
    L.Links (o.attemptFrom f left i) (o.attemptFrom g left i) := by
  induction left generalizing i with
  | zero => exact h
  | succ left ih =>
    intro a b hab
    obtain ⟨houtcome, hafter⟩ := h a b hab
    -- The two verdicts are alike, so both loops end here or both go on.
    have hverdicts := L.verdicts houtcome hafter o i
    rw [RetryOptions.attemptFrom_succ, RetryOptions.attemptFrom_succ]
    revert hverdicts
    generalize o.verdict i (f a).1 (f a).2 = v
    generalize o.verdict i (g b).1 (g b).2 = w
    intro hverdicts
    cases hverdicts with
    | leave hfinal => exact ⟨houtcome, hfinal⟩
    | again hnext => exact ih (i + 1) _ _ hnext

/-! ## §3. Runs -/

/-- The API version is put on like calls, or on neither. -/
theorem alike_stamp (o : PipelineOptions) {a : Call σ} {b : Call τ} (hab : L.calls a b) :
    Alike (fun r s => L.calls { a with request := r } { b with request := s })
      (o.stamp a.request) (o.stamp b.request) := by
  unfold PipelineOptions.stamp
  match o.apiVersion with
  | none => exact .ok hab
  | some ⟨.header, name, version⟩ => exact L.header hab name version
  | some ⟨.queryParameter, name, version⟩ => exact L.query hab name version

/-- Like requests are prepared alike, or neither is. -/
theorem alike_prepare (o : PipelineOptions) (agent : String) {a : Call σ} {b : Call τ}
    (hab : L.calls a b) :
    Alike (fun r s => L.calls { a with request := r } { b with request := s })
      (o.prepare agent a.request) (o.prepare agent b.request) := by
  have hstamp := L.alike_stamp o hab
  unfold PipelineOptions.prepare
  revert hstamp
  generalize o.stamp a.request = x
  generalize o.stamp b.request = y
  intro hstamp
  cases hstamp with
  | error e => exact .error e
  | ok hversioned => exact L.header hversioned "User-Agent" agent

/-- **A pipeline keeps calls alike, if its peers do.** -/
theorem links_run (o : PipelineOptions) (agent : String) {c : Credential σ} {d : Credential τ}
    (hcredential : L.Authorizes c d) {t : Transport σ} {u : Transport τ}
    (htransport : L.Links t.exchange u.exchange) :
    L.Links (o.pipeline agent c t).run (o.pipeline agent d u).run := by
  have hattempts := L.links_attemptFrom o.retry (L.links_attempting hcredential htransport)
    (o.retry.maxAttempts - 1) 1
  have hretry : L.Links ((Policy.retry o.retry).process (Next.attempting c t))
      ((Policy.retry o.retry).process (Next.attempting d u)) :=
    fun a b hab => hattempts _ _ (L.mark hab)
  intro a b hab
  rw [o.run_pipeline, o.run_pipeline]
  refine L.results_withRequest (fun a b hab => ?_) hab (L.alike_stamp o hab)
  exact L.results_withRequest hretry hab (L.header hab "User-Agent" agent)

/-! ## §4. The attempts of runs -/

/-- Whether two attempts begin alike and end alike. -/
structure Attempts (x : Attempt σ) (y : Attempt τ) : Prop where
  before : L.calls x.before y.before
  outcome : Alike L.responses x.outcome y.outcome
  after : L.calls x.after y.after

theorem attempts_of {f : Exchange σ} {g : Exchange τ} (h : L.Links f g) {a : Call σ}
    {b : Call τ} (hab : L.calls a b) : L.Attempts (Attempt.of f a) (Attempt.of g b) :=
  ⟨hab, (h a b hab).1, (h a b hab).2⟩

/-- Loops at like chains make as many attempts, which are alike one by one. -/
theorem alike_attemptsFrom (o : RetryOptions) {f : Exchange σ} {g : Exchange τ}
    (h : L.Links f g) (left i : Nat) {a : Call σ} {b : Call τ} (hab : L.calls a b) :
    List.Forall₂ L.Attempts (o.attemptsFrom f left i a) (o.attemptsFrom g left i b) := by
  induction left generalizing i a b with
  | zero => exact .cons (L.attempts_of h hab) .nil
  | succ left ih =>
    obtain ⟨houtcome, hafter⟩ := h a b hab
    have hverdicts := L.verdicts houtcome hafter o i
    rw [RetryOptions.attemptsFrom, RetryOptions.attemptsFrom]
    refine .cons (L.attempts_of h hab) ?_
    revert hverdicts
    generalize o.verdict i (f a).1 (f a).2 = v
    generalize o.verdict i (g b).1 (g b).2 = w
    intro hverdicts
    cases hverdicts with
    | leave _ => exact .nil
    | again hnext => exact ih (i + 1) hnext

/-- **The attempts of like runs are alike**, one by one. -/
theorem alike_attempts (o : PipelineOptions) (agent : String) {c : Credential σ}
    {d : Credential τ} (hcredential : L.Authorizes c d) {t : Transport σ} {u : Transport τ}
    (htransport : L.Links t.exchange u.exchange) {a : Call σ} {b : Call τ}
    (hab : L.calls a b) :
    List.Forall₂ L.Attempts (o.attempts agent c t a) (o.attempts agent d u b) := by
  have hlinks := L.links_attempting hcredential htransport
  have hprepare := L.alike_prepare o agent hab
  unfold PipelineOptions.attempts
  revert hprepare
  generalize o.prepare agent a.request = x
  generalize o.prepare agent b.request = y
  intro hprepare
  cases hprepare with
  | error e => exact .nil
  | ok hbase =>
    dsimp only
    rw [o.retry.attempts_eq, o.retry.attempts_eq]
    exact L.alike_attemptsFrom o.retry hlinks (o.retry.maxAttempts - 1) 1 (L.mark hbase)

end Likeness

end HttpPipeline
