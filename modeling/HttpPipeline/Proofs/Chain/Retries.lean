import HttpPipeline.Proofs.Assembly.Handovers
import HttpPipeline.Proofs.Chain.Order
import Mathlib.Data.List.Basic

/-! # Several retry policies in one chain

  A request has one mark, and every retry policy of a chain sets it. Going back to the mark
  undoes what was added since the mark was set last, and that may have been further down: a
  retry policy then begins its next attempt with the headers that the last retry policy below it
  was entered with. What is kept at the mark is the invariant here. The policies that add
  headers leave it alone, a retry policy puts the headers it is entered with in its place, and
  nothing else changes it; so what a further attempt begins with can be read off the steps of
  the attempt before.
-/

namespace HttpPipeline

variable {σ : Type}

/-! ## §1. What is kept -/

/-- The headers that stay when a request goes back to its mark. -/
def Request.kept (r : Request) : List (String × String) :=
  r.headers.take r.mark

/-- The mark is not behind the last header. -/
def Request.Marked (r : Request) : Prop :=
  r.mark ≤ r.headers.length

/-- Headers were added to a request at the end, and the mark was left alone. -/
structure Request.GrowsTo (r r' : Request) : Prop where
  headers : r.headers <+: r'.headers
  mark : r'.mark = r.mark

theorem Request.GrowsTo.refl (r : Request) : r.GrowsTo r :=
  ⟨List.prefix_rfl, rfl⟩

theorem Request.growsTo_extend (r : Request) (added : List (String × String)) :
    r.GrowsTo (r.extend added) :=
  ⟨List.prefix_append _ _, rfl⟩

/-- What is kept once retry policies have been entered with these calls. -/
def keptAfter (entered : List (Call σ)) (kept : List (String × String)) :
    List (String × String) :=
  (entered.getLast?.map fun call => call.request.headers).getD kept

theorem keptAfter_append (front back : List (Call σ)) (kept : List (String × String)) :
    keptAfter (front ++ back) kept = keptAfter back (keptAfter front kept) := by
  unfold keptAfter
  rw [List.getLast?_append]
  cases back.getLast? <;> rfl

namespace Request

/-- A request goes over into another, while retry policies are entered with these calls, and with
nothing less than was kept. -/
structure GoesTo (r r' : Request) (entered : List (Call σ)) : Prop where
  marked : r'.Marked
  kept : r'.kept = keptAfter entered r.kept
  starts : ∀ call ∈ entered, r.kept <+: call.request.headers

/-- What was kept is still there. -/
theorem GoesTo.kept_prefix {r r' : Request} {entered : List (Call σ)} (h : r.GoesTo r' entered) :
    r.kept <+: r'.kept := by
  rw [h.kept]
  unfold keptAfter
  cases hlast : entered.getLast? with
  | none => exact List.prefix_rfl
  | some call => exact h.starts call (List.mem_of_getLast? hlast)

theorem GoesTo.trans {r r' r'' : Request} {front back : List (Call σ)} (h : r.GoesTo r' front)
    (h' : r'.GoesTo r'' back) : r.GoesTo r'' (front ++ back) where
  marked := h'.marked
  kept := by rw [h'.kept, h.kept, keptAfter_append]
  starts call hcall := by
    rcases List.mem_append.mp hcall with hcall | hcall
    · exact h.starts call hcall
    · exact h.kept_prefix.trans (h'.starts call hcall)

/-- Headers that are added come after what is kept. -/
theorem Marked.goesTo_of_growsTo {r r' : Request} (hr : r.Marked) (h : r.GrowsTo r') :
    r.GoesTo r' ([] : List (Call σ)) where
  marked := by
    unfold Marked
    rw [h.mark]
    exact Nat.le_trans hr h.headers.length_le
  kept := by
    obtain ⟨added, hadded⟩ := h.headers
    show r'.headers.take r'.mark = r.headers.take r.mark
    rw [h.mark, ← hadded]
    exact List.take_append_of_le_length hr
  starts _ hcall := absurd hcall List.not_mem_nil

/-- Going back to the mark leaves what is kept. -/
theorem Marked.goesTo_dropMarkedHeaders {r : Request} (hr : r.Marked) :
    r.GoesTo r.dropMarkedHeaders ([] : List (Call σ)) where
  marked := by
    unfold Marked
    rw [headers_dropMarkedHeaders, mark_dropMarkedHeaders, List.length_take]
    exact Nat.le_min.mpr ⟨Nat.le_refl _, hr⟩
  kept := by
    show (r.headers.take r.mark).take r.mark = r.headers.take r.mark
    rw [List.take_take, Nat.min_self]
  starts _ hcall := absurd hcall List.not_mem_nil

/-- A retry policy that is entered keeps what it is entered with. -/
theorem goesTo_markHeaders (call : Call σ) :
    call.request.GoesTo call.request.markHeaders [call] where
  marked := Nat.le_refl _
  kept := List.take_length
  starts c hc := by
    obtain rfl := List.mem_singleton.mp hc
    exact List.take_prefix _ _

end Request

/-- Whether retry policies are entered with these calls in each run of an exchange. -/
def Exchange.Enters (rest : Exchange σ) (entered : Call σ → List (Call σ)) : Prop :=
  ∀ call : Call σ, call.request.Marked →
    call.request.GoesTo (rest call).2.request (entered call)

/-! ## §2. One retry policy -/

namespace RetryOptions

variable (o : RetryOptions) {rest : Exchange σ} {entered : Call σ → List (Call σ)}

/-- In the attempts of a loop, the retry policies below are entered as in each of them. -/
theorem attemptFrom_enters (h : rest.Enters entered) (left i : Nat) :
    Exchange.Enters (o.attemptFrom rest left i) fun call =>
      (o.attemptsFrom rest left i call).flatMap fun x => entered x.before := by
  induction left generalizing i with
  | zero =>
    intro call hcall
    simpa [attemptFrom, attemptsFrom, Attempt.of] using h call hcall
  | succ left ih =>
    intro call hcall
    have hfirst := h call hcall
    rw [attemptFrom_succ]
    simp only [attemptsFrom]
    cases hv : o.verdict i (rest call).1 (rest call).2 with
    | leave final =>
      obtain ⟨_, _, hfinal⟩ := frame_of_leave hv
      simpa [Attempt.of, hfinal] using hfirst
    | again next =>
      -- First the attempt, then back to the mark, then the attempts after it.
      obtain ⟨_, _, hnext⟩ := frame_of_again hv
      have hdropped : call.request.GoesTo next.request (entered call ++ []) :=
        hfirst.trans (hnext ▸ hfirst.marked.goesTo_dropMarkedHeaders)
      simpa [Attempt.of] using hdropped.trans (ih (i + 1) next hdropped.marked)

/-- **A further attempt begins with what is kept after the one before.** -/
theorem headers_of_further_attempt (h : rest.Enters entered) {left i : Nat} {call : Call σ}
    (hcall : call.request.mark = call.request.headers.length) {n : Nat} {x y : Attempt σ}
    (hx : (o.attemptsFrom rest left i call)[n]? = some x)
    (hy : (o.attemptsFrom rest left i call)[n + 1]? = some y) :
    x.before.request.headers <+: y.before.request.headers ∧
      y.before.request.headers = keptAfter (entered x.before) x.before.request.headers := by
  induction left generalizing i call n with
  | zero => simp [attemptsFrom] at hy
  | succ left ih =>
    simp only [attemptsFrom] at hx hy
    cases hv : o.verdict i (rest call).1 (rest call).2 with
    | leave final => simp [hv] at hy
    | again next =>
      simp only [hv, List.getElem?_cons_succ] at hx hy
      obtain ⟨_, _, hnext⟩ := frame_of_again hv
      -- The attempt begins at its mark, so it keeps all that it begins with, and so does the next.
      have hkept : call.request.kept = call.request.headers := by
        rw [Request.kept, hcall, List.take_length]
      have hfirst := h call (Nat.le_of_eq hcall)
      have hheaders : next.request.headers = (rest call).2.request.kept := by
        rw [hnext]
        rfl
      cases n with
      | zero =>
        obtain rfl : Attempt.of rest call = x := by simpa using hx
        obtain rfl : Attempt.of rest next = y := by
          cases left <;> simpa [attemptsFrom] using hy
        show call.request.headers <+: next.request.headers ∧
          next.request.headers = keptAfter (entered call) call.request.headers
        rw [hheaders, ← hkept]
        exact ⟨hfirst.kept_prefix, hfirst.kept⟩
      | succ n =>
        refine ih ?_ (by simpa using hx) hy
        have hmarked := hfirst.marked
        unfold Request.Marked at hmarked
        rw [hnext, Request.mark_dropMarkedHeaders, Request.headers_dropMarkedHeaders,
          List.length_take, Nat.min_eq_left hmarked]

end RetryOptions

/-! ## §3. Policies that add headers -/

/-- Whether a conduct adds headers to a request, delegates at most once, and hands back the
request as it comes back. -/
inductive Conduct.PassesOn (r : Request) : Conduct σ → Prop where
  | finish {outcome : Outcome} {after : Call σ} (h : r.GrowsTo after.request) :
    PassesOn r (.finish outcome after)
  | delegate {handed : Call σ} {resume : Outcome → Call σ → Conduct σ}
    (h : r.GrowsTo handed.request)
    (hresume : ∀ outcome after, ∃ outcome' final,
      resume outcome after = .finish outcome' final ∧ final.request = after.request) :
    PassesOn r (.delegate handed resume)

namespace Conduct

theorem passesOn_pass {r : Request} {call : Call σ} (h : r.GrowsTo call.request) :
    (pass call).PassesOn r :=
  .delegate h fun outcome after => ⟨outcome, after, rfl, rfl⟩

theorem passesOn_withRequest {call : Call σ} {changed : Except Error Request}
    (h : ∀ r, changed = .ok r → call.request.GrowsTo r) :
    (withRequest call changed pass).PassesOn call.request := by
  cases changed with
  | error e => exact .finish (.refl _)
  | ok r => exact passesOn_pass (h r rfl)

end Conduct

theorem Request.growsTo_appendHeader {r r' : Request} {name value : String}
    (h : r.appendHeader name value = .ok r') : r.GrowsTo r' := by
  obtain ⟨_, _, rfl⟩ := appendHeader_eq_ok_iff.mp h
  exact r.growsTo_extend _

theorem ApiVersionOptions.growsTo_stamp {o : ApiVersionOptions} {r r' : Request}
    (h : o.stamp r = .ok r') : r.GrowsTo r' := by
  unfold stamp at h
  split at h
  · exact Request.growsTo_appendHeader h
  · obtain ⟨_, _, rfl⟩ := Request.setQueryParameter_eq_ok_iff.mp h
    exact ⟨List.prefix_rfl, rfl⟩

/-- A policy of an assembled pipeline, at any place of a chain. -/
inductive Stage (σ : Type) where
  /-- The policy that puts the API version on the request. -/
  | apiVersion (o : ApiVersionOptions)
  /-- The policy that adds the user agent. -/
  | telemetry (agent : String)
  /-- The policy of a credential that only adds headers. -/
  | credential (c : Credential σ) (h : c.AppendsOnly)
  /-- The policy that logs. -/
  | logging
  /-- The policy that runs the rest of the chain again. -/
  | retry (o : RetryOptions)

namespace Stage

/-- The policy. -/
def link : Stage σ → Link σ
  | apiVersion o => .apiVersion o
  | telemetry agent => .telemetry agent
  | credential c _ => .credential c
  | logging => .logging
  | retry o => .retry o

/-- Whether it is a retry policy. -/
def isRetry : Stage σ → Bool
  | retry _ => true
  | apiVersion _ | telemetry _ | credential _ _ | logging => false

/-- The chain of some policies and a transport. -/
def chain (stages : List (Stage σ)) (t : Transport σ) : Next σ :=
  Link.chain (stages.map link) t

/-- Every policy but a retry policy adds headers and passes the call on. -/
theorem passesOn {stage : Stage σ} (h : stage.isRetry = false) (rest : List (Link σ))
    (t : Transport σ) (call : Call σ) :
    (stage.link.conductAt rest t call).PassesOn call.request := by
  cases stage with
  | apiVersion o => exact Conduct.passesOn_withRequest fun r => ApiVersionOptions.growsTo_stamp
  | telemetry agent => exact Conduct.passesOn_withRequest fun r => Request.growsTo_appendHeader
  | credential c hc =>
    obtain ⟨added, hadded⟩ := hc call.request call.toSession
    have happlied : call.request.GrowsTo (c.applied call).request := by
      show call.request.GrowsTo (c.authorize call.request call.toSession).request
      rw [hadded]
      exact call.request.growsTo_extend added
    simp only [link, Link.conductAt, Link.credential]
    cases (c.authorize call.request call.toSession).outcome with
    | error e => exact .finish happlied
    | ok _ => exact Conduct.passesOn_pass happlied
  | logging => exact .delegate (.refl _) fun outcome after => ⟨_, _, rfl, request_reported _ _⟩
  | retry o => cases h

end Stage

/-! ## §4. Chains -/

/-- The call with which one of the policies is entered, if it is a retry policy. -/
def Step.retried? (stages : List (Stage σ)) : Step σ → Option (Call σ)
  | .entered i call => if (stages[i]?).any Stage.isRetry then some call else none
  | .sent _ _ _ | .resumed _ _ _ | .returned _ _ _ => none

/-- The calls with which the retry policies of `back` are entered in a run of it, in order. The
positions of the policies are counted from those of `front` on, which come before. -/
def Transport.retried (t : Transport σ) (front back : List (Stage σ)) (call : Call σ) :
    List (Call σ) :=
  (t.steps front.length (back.map Stage.link) call).filterMap (Step.retried? (front ++ back))

theorem Transport.retried_cons (t : Transport σ) (front : List (Stage σ)) (stage : Stage σ)
    (back : List (Stage σ)) (call : Call σ) :
    t.retried front (stage :: back) call =
      (if stage.isRetry then [call] else []) ++
        (stage.link.delegations (back.map Stage.link) t call).flatMap fun x =>
          t.retried (front ++ [stage]) back x.before := by
  have hstage : (front ++ stage :: back)[front.length]? = some stage := by simp
  have hsame : front ++ [stage] ++ back = front ++ stage :: back := by simp
  have hlength : (front ++ [stage]).length = front.length + 1 := by simp
  unfold Transport.retried
  rw [hsame, hlength]
  simp only [List.map_cons, Transport.steps, List.filterMap_cons, List.filterMap_append,
    List.filterMap_flatMap, Step.retried?, Step.ofReturn, Step.ofResume, hstage]
  cases hretry : stage.isRetry with
  | true => simp [hretry]
  | false => simp [hretry]

/-- A conduct that passes the call on enters the retry policies below it once, or not at all. -/
theorem Conduct.PassesOn.goesTo {r : Request} {conduct : Conduct σ} (h : conduct.PassesOn r)
    {rest : Exchange σ} {entered : Call σ → List (Call σ)} (hrest : rest.Enters entered)
    (hr : r.Marked) :
    r.GoesTo (conduct.run rest).2.request
      ((conduct.delegations rest).flatMap fun x => entered x.before) := by
  cases h with
  | finish h => exact hr.goesTo_of_growsTo h
  | @delegate handed resume h hresume =>
    have hhanded : r.GoesTo handed.request ([] : List (Call σ)) := hr.goesTo_of_growsTo h
    obtain ⟨outcome, final, hfinish, hfinal⟩ := hresume (rest handed).1 (rest handed).2
    simpa [Conduct.run, Conduct.delegations, hfinish, hfinal, Attempt.of] using
      hhanded.trans (hrest handed hhanded.marked)

/-- **What a chain keeps**, it keeps after the retry policies that its steps enter. -/
theorem Stage.chain_enters (t : Transport σ) (front back : List (Stage σ)) :
    Exchange.Enters (chain back t).run (t.retried front back) := by
  -- By induction on the policies, each of which takes one place from `back` to `front`.
  induction back generalizing front with
  | nil => exact fun call hcall => hcall.goesTo_of_growsTo (.refl _)
  | cons stage back ih =>
    intro call hcall
    rw [Transport.retried_cons]
    show call.request.GoesTo ((Link.chain (stage.link :: back.map link) t).run call).2.request _
    rw [Link.run_chain_cons]
    cases stage with
    | retry o =>
      -- It is entered itself, and then come the policies below it, attempt by attempt.
      have hfrom := o.attemptFrom_enters (ih (front ++ [.retry o])) (o.maxAttempts - 1) 1
        { call with request := call.request.markHeaders } (Request.goesTo_markHeaders call).marked
      show call.request.GoesTo
        ((o.conductFrom (o.maxAttempts - 1) 1 { call with request := call.request.markHeaders }).run
          (chain back t).run).2.request
        ([call] ++ ((Link.retry o).delegations (back.map link) t call).flatMap _)
      rw [o.run_conductFrom, Link.delegations_retry, o.attempts_eq]
      exact (Request.goesTo_markHeaders call).trans hfrom
    | apiVersion _ | telemetry _ | credential _ _ | logging =>
      exact (passesOn rfl _ _ _).goesTo (ih _) hcall

/-- Where there is no retry policy, none is entered. -/
theorem Transport.retried_eq_nil (t : Transport σ) (front : List (Stage σ))
    {back : List (Stage σ)} (h : ∀ stage ∈ back, stage.isRetry = false) (call : Call σ) :
    t.retried front back call = [] := by
  induction back generalizing front call with
  | nil => rfl
  | cons stage back ih =>
    rw [Transport.retried_cons, h stage List.mem_cons_self]
    have hbelow (x : Call σ) : t.retried (front ++ [stage]) back x = [] :=
      ih _ (fun s hs => h s (List.mem_cons_of_mem _ hs)) x
    simp [hbelow]

/-- Attempts of which each further one begins with what is kept after the one before all begin
with the same headers exactly if no attempt before another leaves others behind. -/
theorem all_begin_alike_iff {attempts : List (Attempt σ)} {entered : Attempt σ → List (Call σ)}
    {headers : List (String × String)}
    (hfirst : attempts[0]?.map (fun x => x.before.request.headers) = some headers)
    (hfurther : ∀ (n : Nat) x y, attempts[n]? = some x → attempts[n + 1]? = some y →
      y.before.request.headers = keptAfter (entered x) x.before.request.headers) :
    (∀ x ∈ attempts, x.before.request.headers = headers) ↔
      ∀ (n : Nat) x y last, attempts[n]? = some x → attempts[n + 1]? = some y →
        (entered x).getLast? = some last → last.request.headers = headers := by
  constructor
  · intro hall n x y last hx hy hlast
    rw [← hall y (List.mem_of_getElem? hy), hfurther n x y hx hy, keptAfter, hlast]
    rfl
  · intro hlasts
    -- By induction on the number of the attempt: the one before left the same headers behind.
    have hnth (n : Nat) (y : Attempt σ) (hy : attempts[n]? = some y) :
        y.before.request.headers = headers := by
      induction n generalizing y with
      | zero => simpa [hy] using hfirst
      | succ n ih =>
        obtain ⟨x, hx⟩ : ∃ x, attempts[n]? = some x := by
          have hlt := (List.getElem?_eq_some_iff.mp hy).1
          exact ⟨attempts[n], List.getElem?_eq_getElem (by omega)⟩
        rw [hfurther n x y hx hy, keptAfter]
        cases hlast : (entered x).getLast? with
        | none => exact ih x hx
        | some last => exact hlasts n x y last hx hy hlast
    intro x hx
    obtain ⟨n, hn⟩ := List.getElem?_of_mem hx
    exact hnth n x hn

/-- **What the attempts of one retry policy among others begin with.** The first one begins with
the headers that the policy is entered with. A further one has all the headers of the one before
it, and exactly those with which the last retry policy was entered that is further down and was
entered in that attempt, if there is one; so what was added in between is not taken away. All
attempts begin with the same headers exactly if no attempt before another ends with a retry policy
further down entered with others, and in any case if there is no retry policy further down. -/
theorem attempts_begin_at_last_mark (front back : List (Stage σ)) (o : RetryOptions)
    (t : Transport σ) (call : Call σ) :
    let next := Stage.chain back t
    let run := (Policy.retry o).process next call
    let attempts := o.attempts next call
    let entered (x : Attempt σ) := t.retried (front ++ [.retry o]) back x.before
    (Policy.retry o).process next.journaled (call.journaled []) =
        (run.1, run.2.journaled attempts) ∧
      attempts[0]?.map (fun x => x.before.request.headers) = some call.request.headers ∧
      (∀ (n : Nat) x y, attempts[n]? = some x → attempts[n + 1]? = some y →
        x.before.request.headers <+: y.before.request.headers ∧
          y.before.request.headers = keptAfter (entered x) x.before.request.headers) ∧
      ((∀ x ∈ attempts, x.before.request.headers = call.request.headers) ↔
        ∀ (n : Nat) x y last, attempts[n]? = some x → attempts[n + 1]? = some y →
          (entered x).getLast? = some last → last.request.headers = call.request.headers) ∧
      ((∀ stage ∈ back, stage.isRetry = false) →
        ∀ x ∈ attempts, x.before.request.headers = call.request.headers) := by
  intro next run attempts entered
  have hattempts : attempts = o.attemptsFrom next.run (o.maxAttempts - 1) 1
      { call with request := call.request.markHeaders } := o.attempts_eq next call
  have hfirst : attempts[0]?.map (fun x => x.before.request.headers) =
      some call.request.headers := by
    rw [hattempts]
    cases o.maxAttempts - 1 <;> rfl
  have henters : Exchange.Enters next.run (t.retried (front ++ [.retry o]) back) :=
    Stage.chain_enters t _ back
  have hfurther (n : Nat) (x y : Attempt σ) (hx : attempts[n]? = some x)
      (hy : attempts[n + 1]? = some y) :
      x.before.request.headers <+: y.before.request.headers ∧
        y.before.request.headers = keptAfter (entered x) x.before.request.headers := by
    rw [hattempts] at hx hy
    exact (o.headers_of_further_attempt henters rfl hx hy :)
  have hiff := all_begin_alike_iff hfirst fun n x y hx hy => (hfurther n x y hx hy).2
  refine ⟨o.process_journaled next call, hfirst, hfurther, hiff, fun hnone => ?_⟩
  refine hiff.mpr fun n x y last _ _ hlast => ?_
  have hnil : entered x = [] := t.retried_eq_nil _ hnone x.before
  rw [hnil] at hlast
  cases hlast

/-- Of two retry policies with the user agent between them, the first one begins its second attempt
with the user agent of the first attempt. -/
theorem attempts_begin_at_last_mark_of_nested :
    let agent := ("User-Agent", "nimbus-rs-core/1.0")
    let back : List (Stage Script) := [.telemetry agent.2, .retry { maxRetries := 0 }]
    let o : RetryOptions := { maxRetries := 1 }
    let t := Transport.scripted Script.nextReply
    let call : Call Script := {
      peer := { replies := [{ outcome := .ok { status := 503 } }] }
      request := { method := .get, url := "/a", urlCapacity := 64, headerCapacity := 4 } }
    ∃ x y, o.attempts (Stage.chain back t) call = [x, y] ∧
      (t.retried [.retry o] back x.before).map (fun c => c.request.headers) = [[agent]] ∧
      y.before.request.headers = [agent] := by
  intro agent back o t call
  obtain ⟨-, -, hfurther, -⟩ := attempts_begin_at_last_mark [] back o t call
  obtain ⟨x, y, hattempts⟩ : ∃ x y, o.attempts (Stage.chain back t) call = [x, y] :=
    List.length_eq_two.mp (by decide)
  have hentered : (t.retried [.retry o] back x.before).map (fun c => c.request.headers) =
      [[agent]] := by
    have hall : (o.attempts (Stage.chain back t) call).map (fun x =>
        (t.retried [.retry o] back x.before).map fun c => c.request.headers) =
          [[[agent]], [[agent, agent]]] := by
      decide
    rw [hattempts] at hall
    exact (List.cons.inj hall).1
  refine ⟨x, y, hattempts, hentered, ?_⟩
  obtain ⟨_, hheaders⟩ := hfurther 0 x y (by rw [hattempts]; rfl) (by rw [hattempts]; rfl)
  have hlast := congrArg List.getLast? hentered
  rw [hheaders, keptAfter, ← List.getLast?_map]
  exact congrArg (fun last => last.getD x.before.request.headers) hlast

/-- So the request that is sent the second time has the user agent twice. -/
theorem user_agent_repeated_by_nested_retries :
    let agent := ("User-Agent", "nimbus-rs-core/1.0")
    let back : List (Stage Script) := [.telemetry agent.2, .retry { maxRetries := 0 }]
    let o : RetryOptions := { maxRetries := 1 }
    let t := Transport.scripted Script.nextReply
    let p : Pipeline Script := ⟨(Stage.retry o :: back).map fun stage => stage.link.toPolicy, t⟩
    let r : Request :=
      { method := .get, url := "https://e.example/", urlCapacity := 2048, headerCapacity := 16 }
    let a : Ambient Script := { peer := { replies := [{ outcome := .ok { status := 503 } }] } }
    (o.attempts (Stage.chain back t) { a with request := r }).map
        (fun x => x.before.request.headers) = [[], [agent]] ∧
      (p.send r a).2.1.headers = [agent, agent] := by
  decide

end HttpPipeline
