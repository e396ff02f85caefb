import HttpPipeline.Policy.Probe
import HttpPipeline.Proofs.Assembly

/-! # The conduct of a policy

  How often a policy runs the rest of its chain, and on which calls, is not a property of its
  result. It is a property of the policy as a program that takes turns with the rest of the chain:
  it ends the call, or it delegates and goes on with what comes back. Such a program is a conduct,
  and a link is a policy that is given by one. A conduct may decide by all that it sees whether to
  delegate again, and what it sees of the rest of the chain is the number of policies left, the
  name of the transport, and what comes back. The policies of an assembled pipeline and the probes
  are all links.
-/

namespace HttpPipeline

variable {σ : Type}

/-! ## §1. Conducts -/

/-- What a policy does with a call, turn by turn. -/
inductive Conduct (σ : Type) where
  /-- The policy ends the call. -/
  | finish (outcome : Outcome) (call : Call σ)
  /-- The policy hands a call to the rest of the chain, and goes on with what comes back. -/
  | delegate (call : Call σ) (resume : Outcome → Call σ → Conduct σ)

namespace Conduct

/-- What comes of a conduct at the rest of a chain. -/
def run (rest : Exchange σ) : Conduct σ → Outcome × Call σ
  | .finish outcome call => (outcome, call)
  | .delegate call resume => (resume (rest call).1 (rest call).2).run rest

/-- The runs of the rest of the chain that a conduct makes, in order. -/
def delegations (rest : Exchange σ) : Conduct σ → List (Attempt σ)
  | .finish _ _ => []
  | .delegate call resume =>
    Attempt.of rest call :: (resume (rest call).1 (rest call).2).delegations rest

/-- The call that a conduct hands on first, or the one that it ends. -/
def handsOn : Conduct σ → Call σ
  | .finish _ call => call
  | .delegate call _ => call

/-- Every delegation is a run of the rest of the chain. -/
theorem eq_of_mem_delegations {rest : Exchange σ} {conduct : Conduct σ} {x : Attempt σ}
    (hx : x ∈ conduct.delegations rest) : x = Attempt.of rest x.before := by
  induction conduct with
  | finish outcome call => cases hx
  | delegate call resume ih =>
    rcases List.mem_cons.mp hx with rfl | hx
    · rfl
    · exact ih _ _ hx

/-- The first delegation is of the call that is handed on first. -/
theorem before_of_delegations {rest : Exchange σ} {conduct : Conduct σ} {x : Attempt σ}
    {more : List (Attempt σ)} (h : conduct.delegations rest = x :: more) :
    x.before = conduct.handsOn := by
  cases conduct with
  | finish outcome call => cases h
  | delegate call resume =>
    obtain rfl := (List.cons.inj h).1
    rfl

/-- The conduct that goes on with the request changed, or ends with the failure to change it. -/
def withRequest (call : Call σ) (changed : Except Error Request) (next : Call σ → Conduct σ) :
    Conduct σ :=
  match changed with
  | .error e => .finish (.error e) call
  | .ok request => next { call with request }

theorem run_withRequest (rest : Exchange σ) (call : Call σ) (changed : Except Error Request)
    (next : Call σ → Conduct σ) :
    (withRequest call changed next).run rest =
      call.withRequest changed fun call => (next call).run rest := by
  cases changed with
  | error e => rfl
  | ok request => rfl

/-- The conduct that hands a call on and passes on what comes back. -/
def pass (call : Call σ) : Conduct σ :=
  .delegate call .finish

end Conduct

/-! ## §2. Links -/

/-- A policy that is given by a conduct. -/
structure Link (σ : Type) extends Policy σ where
  /-- What the policy does with a call, when it sees so many policies and a transport of this name
  after it. -/
  conduct : (remaining : Nat) → (transport : String) → Call σ → Conduct σ
  /-- That is what the policy is. -/
  process_eq : ∀ next call,
    process next call = (conduct next.remaining next.transport call).run next.run

namespace Link

/-- The chain of some links and a transport. -/
def chain (links : List (Link σ)) (t : Transport σ) : Next σ :=
  Next.ofChain (links.map toPolicy) t

/-- What a link does with a call before others. -/
def conductAt (link : Link σ) (rest : List (Link σ)) (t : Transport σ) (call : Call σ) :
    Conduct σ :=
  link.conduct rest.length t.name call

/-- The runs of the rest of the chain that a link makes before others. -/
def delegations (link : Link σ) (rest : List (Link σ)) (t : Transport σ) (call : Call σ) :
    List (Attempt σ) :=
  (link.conductAt rest t call).delegations (chain rest t).run

theorem run_chain_cons (link : Link σ) (rest : List (Link σ)) (t : Transport σ)
    (call : Call σ) :
    (chain (link :: rest) t).run call =
      (link.conductAt rest t call).run (chain rest t).run := by
  have hprocess := link.process_eq (chain rest t) call
  rw [show (chain rest t).remaining = rest.length by simp [chain],
    show (chain rest t).transport = t.name by simp [chain]] at hprocess
  exact hprocess

end Link

/-! ## §3. The policies of an assembled pipeline -/

/-- The API version is put on the request once. -/
def Link.apiVersion (o : ApiVersionOptions) : Link σ where
  toPolicy := Policy.apiVersion o
  conduct _ _ call := .withRequest call (o.stamp call.request) .pass
  process_eq _ _ := by
    rw [Conduct.run_withRequest]
    rfl

/-- The user agent is put on the request once. -/
def Link.telemetry (agent : String) : Link σ where
  toPolicy := Policy.telemetry agent
  conduct _ _ call := .withRequest call (call.request.appendHeader "User-Agent" agent) .pass
  process_eq _ _ := by
    rw [Conduct.run_withRequest]
    rfl

/-- The rest of the chain runs unless the credential fails. -/
def Link.credential (c : Credential σ) : Link σ where
  toPolicy := Policy.credential c
  conduct _ _ call :=
    match (c.authorize call.request call.toSession).outcome with
    | .error e => .finish (.error e) (c.applied call)
    | .ok () => .pass (c.applied call)
  process_eq next call := by
    simp only [Policy.credential]
    cases (c.authorize call.request call.toSession).outcome with
    | error e => rfl
    | ok _ => rfl

/-- The rest of the chain runs between two messages. -/
def Link.logging : Link σ where
  toPolicy := Policy.logging
  conduct _ _ call :=
    .delegate (call.logText .httpRequest (Log.requestMessage call.request))
      fun outcome after =>
        .finish (reported call.now (outcome, after)).1 (reported call.now (outcome, after)).2
  process_eq _ _ := rfl

/-- What a retry policy does from attempt number `i` on. -/
def RetryOptions.conductFrom (o : RetryOptions) : (left i : Nat) → Call σ → Conduct σ
  | 0, _, call => .pass call
  | left + 1, i, call => .delegate call fun outcome after =>
    match o.verdict i outcome after with
    | .leave final => .finish outcome final
    | .again next => o.conductFrom left (i + 1) next

theorem RetryOptions.run_conductFrom (o : RetryOptions) (rest : Exchange σ) (left i : Nat)
    (call : Call σ) : (o.conductFrom left i call).run rest = o.attemptFrom rest left i call := by
  induction left generalizing i call with
  | zero => rfl
  | succ left ih =>
    rw [attemptFrom_succ]
    simp only [conductFrom, Conduct.run]
    cases o.verdict i (rest call).1 (rest call).2 with
    | leave final => rfl
    | again next => exact ih (i + 1) next

/-- The rest of the chain runs once for each attempt. -/
def Link.retry (o : RetryOptions) : Link σ where
  toPolicy := Policy.retry o
  conduct _ _ call :=
    o.conductFrom (o.maxAttempts - 1) 1 { call with request := call.request.markHeaders }
  process_eq _ _ := (o.run_conductFrom _ _ _ _).symm

/-- The attempts of a retry policy are its delegations. -/
theorem Link.delegations_retry (o : RetryOptions) (rest : List (Link σ)) (t : Transport σ)
    (call : Call σ) :
    (Link.retry o).delegations rest t call = o.attempts (chain rest t) call := by
  have hfrom (left i : Nat) (from' : Call σ) :
      (o.conductFrom left i from').delegations (chain rest t).run =
        o.attemptsFrom (chain rest t).run left i from' := by
    induction left generalizing i from' with
    | zero => rfl
    | succ left ih =>
      rw [RetryOptions.attemptsFrom]
      simp only [RetryOptions.conductFrom, Conduct.delegations]
      cases o.verdict i ((chain rest t).run from').1 ((chain rest t).run from').2 with
      | leave final => rfl
      | again next => exact congrArg _ (ih (i + 1) next)
  rw [o.attempts_eq]
  exact hfrom _ _ _

/-- The policies of an assembled pipeline, as links. -/
def PipelineOptions.links (o : PipelineOptions) (agent : String) (c : Credential σ) :
    List (Link σ) :=
  (o.apiVersion.map Link.apiVersion).toList ++
    [.telemetry agent, .retry o.retry, .credential c, .logging]

/-- **The policies of an assembled pipeline are links.** -/
theorem PipelineOptions.policies_eq_links (o : PipelineOptions) (agent : String)
    (c : Credential σ) (t : Transport σ) :
    (o.pipeline agent c t).policies = (o.links agent c).map Link.toPolicy := by
  unfold pipeline links
  cases o.apiVersion with
  | none => rfl
  | some apiVersion => rfl

/-! ## §4. Probes -/

/-- A recorder runs the rest of the chain once, between two marks, unless it cannot add its
header. -/
def Link.recorder (label : String) (header : Option (String × String) := none) : Link σ where
  toPolicy := Policy.recorder label header
  conduct _ _ call :=
    let call := call.record (.marked (label ++ ":down"))
    let changed : Except Error Request := match header with
      | none => .ok call.request
      | some (name, value) => call.request.appendHeader name value
    .withRequest call changed fun call => .delegate call fun outcome after =>
      .finish outcome (after.record (.marked (Policy.returnMark label outcome)))
  process_eq _ _ := by
    rw [Conduct.run_withRequest]
    rfl

/-- A short circuit does not run the rest of the chain. -/
def Link.shortCircuit (status : Http.Status) : Link σ where
  toPolicy := Policy.shortCircuit status
  conduct _ _ call := .finish (.ok { status }) call
  process_eq _ _ := rfl

/-- Neither does a refusal. -/
def Link.refuse (e : Error) : Link σ where
  toPolicy := Policy.refuse e
  conduct _ _ call := .finish (.error e) call
  process_eq _ _ := rfl

/-- A rejection comes after the rest of the chain. -/
def Link.reject : Link σ where
  toPolicy := Policy.reject
  conduct _ _ call := .delegate call fun outcome after =>
    match outcome with
    | .error e => .finish (.error e) after
    | .ok response => .finish (.error (.rejected "reject" s!"status {response.status}")) after
  process_eq next call := by
    simp only [Policy.reject, Conduct.run]
    cases (next.run call).1 with
    | error e => rfl
    | ok response => rfl

/-- A query parameter is put on the request once. -/
def Link.query (name value : String) : Link σ where
  toPolicy := Policy.query name value
  conduct _ _ call := .withRequest call (call.request.setQueryParameter name value) .pass
  process_eq _ _ := by
    rw [Conduct.run_withRequest]
    rfl

/-- A look at the rest of the chain comes before it. -/
def Link.inspect : Link σ where
  toPolicy := Policy.inspect
  conduct remaining transport call :=
    -- The description shows these two and nothing of what the rest of the chain does.
    let shown : Next σ := ⟨remaining, transport, fun call => (.error .cancelled, call)⟩
    .pass (call.record (.inspected remaining shown.describe))
  process_eq _ _ := rfl

/-- What a repeating policy does after an outcome. -/
def Conduct.repeatFrom : (more : Nat) → Outcome → Call σ → Conduct σ
  | 0, outcome, call => .finish outcome call
  | more + 1, _, call => .delegate call (repeatFrom more)

theorem Conduct.run_repeatFrom (rest : Exchange σ) (more : Nat) (outcome : Outcome)
    (call : Call σ) :
    (repeatFrom more outcome call).run rest = Policy.rerun rest more (outcome, call) := by
  induction more generalizing outcome call with
  | zero => rfl
  | succ more ih => exact ih (rest call).1 (rest call).2

/-- A repeating policy runs the rest of the chain a number of times. -/
def Link.repeating (times : Nat) : Link σ where
  toPolicy := Policy.repeating times
  conduct _ _ call := .delegate call (.repeatFrom (times - 1))
  process_eq next _ := (Conduct.run_repeatFrom next.run _ _ _).symm

end HttpPipeline
