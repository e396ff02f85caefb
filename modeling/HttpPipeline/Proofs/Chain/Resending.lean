import HttpPipeline.Proofs.Assembly.Room
import HttpPipeline.Proofs.Chain.Order
import HttpPipeline.Proofs.Request.Changes
import HttpPipeline.Proofs.Request.Query

/-! # What is sent again

  Before a retry policy makes another attempt, it takes away the headers that the policies below
  it have added. It does not take away query parameters, so a policy below it that adds one adds
  it in every attempt again. The request that the transport is handed in an attempt is therefore
  a function of the number of the attempt: its headers are always the same, and its URL grows by
  what the policies below add to it. If they add nothing to it, all requests are equal, and room
  for one attempt is room for every other.
-/

namespace HttpPipeline

variable {σ : Type}

/-! ## §1. Additions to a request -/

namespace Request

/-- The request with headers and query parameters added at the end. -/
def carrying (r : Request) (headers : List (String × String)) (ps : List Parameter) : Request :=
  { r with
    url := urlWith r.url ps
    headers := r.headers ++ headers }

@[simp] theorem carrying_nil (r : Request) : r.carrying [] [] = r := by
  simp [carrying]

theorem carrying_carrying (r : Request) (headers headers' : List (String × String))
    (ps ps' : List Parameter) :
    (r.carrying headers ps).carrying headers' ps' =
      r.carrying (headers ++ headers') (ps ++ ps') := by
  simp [carrying, urlWith_append]

/-- Going back to the mark takes away the headers that were added since, and no parameter. -/
theorem dropMarkedHeaders_carrying (r : Request) (headers : List (String × String))
    (ps : List Parameter) :
    (r.markHeaders.carrying headers ps).dropMarkedHeaders = r.markHeaders.carrying [] ps := by
  simp [carrying, markHeaders, dropMarkedHeaders]

theorem appendHeader_of_room {r : Request} {name : String} (hname : Text.trim name ≠ "")
    (value : String) (hroom : r.headers.length + 1 ≤ r.headerCapacity) :
    r.appendHeader name value = .ok (r.carrying [(Text.trim name, value)] []) :=
  appendHeader_eq_ok_iff.mpr ⟨hname, hroom, rfl⟩

/-- Whether the URL of a request has its room. -/
def UrlFits (r : Request) : Prop :=
  r.url.utf8ByteSize ≤ r.urlCapacity

instance (r : Request) : Decidable r.UrlFits :=
  inferInstanceAs (Decidable (r.url.utf8ByteSize ≤ r.urlCapacity))

/-- Whether the URL and the headers of a request have their room. -/
structure Fits (r : Request) : Prop where
  url : r.UrlFits
  headers : r.headers.length ≤ r.headerCapacity

/-- A URL that has its room with some parameters has it without them. -/
theorem UrlFits.of_carrying {r : Request} {headers : List (String × String)}
    {ps : List Parameter} (h : (r.carrying headers ps).UrlFits) : r.UrlFits := by
  obtain ⟨added, hadded⟩ := exists_urlWith_eq_append r.url ps
  have hurl : (urlWith r.url ps).utf8ByteSize ≤ r.urlCapacity := h
  rw [hadded, String.utf8ByteSize_append] at hurl
  show r.url.utf8ByteSize ≤ r.urlCapacity
  omega

end Request

/-! ## §2. Layers -/

/-- A policy that is set up once and puts the same on every request, or nothing. -/
inductive Layer where
  /-- The policy that puts the API version on the request. Its name is not blank. -/
  | apiVersion (o : ApiVersionOptions) (named : Text.isBlankText o.name = false)
  /-- The policy that adds the user agent. -/
  | telemetry (agent : String)
  /-- The policy of the credential of a token. -/
  | bearer (token : Token)
  /-- The policy that logs. -/
  | logging

namespace Layer

/-- The policy. -/
def link : Layer → Link σ
  | apiVersion o _ => .apiVersion o
  | telemetry agent => .telemetry agent
  | bearer token => .credential (.bearer token)
  | logging => .logging

/-- The headers that it adds. -/
def headers : Layer → List (String × String)
  | apiVersion ⟨.header, name, version⟩ _ => [(Text.trim name, version)]
  | apiVersion ⟨.queryParameter, _, _⟩ _ => []
  | telemetry agent => [("User-Agent", agent)]
  | bearer token => [token.header]
  | logging => []

/-- The query parameters that it adds. -/
def parameters : Layer → List Parameter
  | apiVersion ⟨.header, _, _⟩ _ => []
  | apiVersion ⟨.queryParameter, name, version⟩ _ => [(name, version)]
  | telemetry _ | bearer _ | logging => []

/-- The request with all that some layers add to it. -/
def addAll (layers : List Layer) (r : Request) : Request :=
  r.carrying (layers.flatMap headers) (layers.flatMap parameters)

theorem addAll_cons (layer : Layer) (layers : List Layer) (r : Request) :
    addAll (layer :: layers) r = addAll layers (r.carrying layer.headers layer.parameters) := by
  simp only [addAll, Request.carrying_carrying, List.flatMap_cons]

end Layer

/-- Whether a conduct hands on a call with this request, and gives back the outcome and the
request that come back. -/
def Conduct.Forwards (r : Request) (conduct : Conduct σ) : Prop :=
  ∃ handed resume, conduct = .delegate handed resume ∧ handed.request = r ∧
    ∀ outcome after, ∃ final, resume outcome after = .finish outcome final ∧
      final.request = after.request

namespace Conduct

theorem forwards_pass (call : Call σ) : (pass call).Forwards call.request :=
  ⟨call, .finish, rfl, rfl, fun _ after => ⟨after, rfl, rfl⟩⟩

theorem forwards_withRequest (call : Call σ) {changed : Except Error Request} {r : Request}
    (h : changed = .ok r) : (withRequest call changed pass).Forwards r := by
  subst h
  exact forwards_pass _

end Conduct

/-- **What a layer does.** With room for its headers, it forwards the request with all that it
adds, if the URL has its room then, and otherwise ends the call for want of it. -/
theorem Layer.conduct_cases (layer : Layer) (rest : List (Link σ)) (t : Transport σ)
    {call : Call σ} (hurl : call.request.UrlFits) (hheaders :
      call.request.headers.length + layer.headers.length ≤ call.request.headerCapacity) :
    let next := call.request.carrying layer.headers layer.parameters
    (next.UrlFits ∧ (layer.link.conductAt rest t call).Forwards next) ∨
    (¬ next.UrlFits ∧ ∃ needed final,
      layer.link.conductAt rest t call =
        .finish (.error (.insufficientCapacity "url" needed call.request.urlCapacity)) final) := by
  match layer with
  | .apiVersion ⟨.header, name, version⟩ named =>
    have htrim : Text.trim name ≠ "" := by
      simpa [Text.trim_eq_empty_iff] using named
    have happend := Request.appendHeader_of_room htrim version hheaders
    exact .inl ⟨hurl, Conduct.forwards_withRequest call happend⟩
  | .apiVersion ⟨.queryParameter, name, version⟩ named =>
    intro next
    have hne : name ≠ "" := by
      rintro rfl
      simp [Text.isBlankText] at named
    have hnext : call.request.url ++ Request.separator call.request.url ++ name ++ "=" ++
        version = next.url := by
      simp [next, Request.carrying, parameters, Parameter.written, String.append_assoc]
    have hsize : Request.sizeWithParameter call.request.url name version =
        next.url.utf8ByteSize := by
      rw [← hnext, Request.utf8ByteSize_with_parameter]
    rcases Request.setQueryParameter_cases (r := call.request) hne version with
      ⟨hfits, hset⟩ | ⟨hfull, hset⟩
    · refine .inl ⟨hsize.symm.trans_le hfits, Conduct.forwards_withRequest call (hset.trans ?_)⟩
      rw [hnext]
      simp [next, Request.carrying, headers]
    · refine .inr ⟨Nat.not_le.mpr (hfull.trans_eq hsize), next.url.utf8ByteSize, call, ?_⟩
      show Conduct.withRequest call (call.request.setQueryParameter name version) .pass = _
      rw [hset, hsize]
      rfl
  | .telemetry agent =>
    have happend :=
      Request.appendHeader_of_room (by decide : Text.trim "User-Agent" ≠ "") agent hheaders
    exact .inl ⟨hurl, Conduct.forwards_withRequest call happend⟩
  | .bearer token =>
    have happend := Request.appendHeader_of_room (by decide : Text.trim "Authorization" ≠ "")
      token.headerValue hheaders
    have hauthorized : (Credential.bearer token).authorize call.request call.toSession = {
        outcome := .ok ()
        request := call.request.carrying [token.header] []
        session := call.toSession } := by
      simp only [Credential.bearer, happend]
      rfl
    refine .inl ⟨hurl, ?_⟩
    simp only [link, Link.conductAt, Link.credential, Credential.applied, hauthorized]
    exact Conduct.forwards_pass _
  | .logging =>
    intro next
    have hsame : call.request = next := by
      simp [next, headers, parameters]
    exact .inl ⟨hurl, _, _, rfl, hsame, fun outcome after =>
      ⟨_, by rw [outcome_reported], request_reported _ _⟩⟩

/-! ## §3. Layers in a chain -/

/-- Whether a step is one of a policy at a position from `i` on and before `j`. -/
def Step.Within (i j : Nat) (step : Step σ) : Prop :=
  ∃ n, i ≤ n ∧ n < j ∧ step.position = some n

theorem Step.Within.mono {i i' j j' : Nat} {step : Step σ} (h : step.Within i j) (hi : i' ≤ i)
    (hj : j ≤ j') : step.Within i' j' := by
  obtain ⟨n, hn, hn', hposition⟩ := h
  exact ⟨n, Nat.le_trans hi hn, Nat.lt_of_lt_of_le hn' hj, hposition⟩

/-- A run of `links`, at the positions from `i` on, gets through to `rest`, at those from `j` on,
with the call `handed`, and what comes back from there comes back from the whole run. -/
structure Transport.Reaches (t : Transport σ) (i : Nat) (links : List (Link σ)) (call : Call σ)
    (j : Nat) (rest : List (Link σ)) (handed : Call σ) : Prop where
  outcome : ((Link.chain links t).run call).1 = ((Link.chain rest t).run handed).1
  request : ((Link.chain links t).run call).2.request =
    ((Link.chain rest t).run handed).2.request
  steps : ∃ down up, t.steps i links call = down ++ t.steps j rest handed ++ up ∧
    ∀ step ∈ down ++ up, step.Within i j

/-- A run of `links`, at the positions from `i` on and before `j`, ends with a failure among
them. -/
structure Transport.FailsWithin (t : Transport σ) (i : Nat) (links : List (Link σ))
    (call : Call σ) (j : Nat) (e : Error) : Prop where
  outcome : ((Link.chain links t).run call).1 = .error e
  steps : ∀ step ∈ t.steps i links call, step.Within i j

namespace Transport

variable {t : Transport σ} {i j k : Nat} {links middle rest : List (Link σ)}
  {call reached handed : Call σ} {e : Error}

theorem Reaches.refl (t : Transport σ) (i : Nat) (links : List (Link σ)) (call : Call σ) :
    t.Reaches i links call i links call :=
  ⟨rfl, rfl, [], [], by simp, by simp⟩

theorem Reaches.trans (h : t.Reaches i links call j middle reached)
    (h' : t.Reaches j middle reached k rest handed) (hij : i ≤ j) (hjk : j ≤ k) :
    t.Reaches i links call k rest handed where
  outcome := h.outcome.trans h'.outcome
  request := h.request.trans h'.request
  steps := by
    obtain ⟨down, up, hsteps, hwithin⟩ := h.steps
    obtain ⟨down', up', hsteps', hwithin'⟩ := h'.steps
    refine ⟨down ++ down', up' ++ up, by simp [hsteps, hsteps'], fun step hstep => ?_⟩
    have hstep : step ∈ down ++ up ∨ step ∈ down' ++ up' := by
      simp only [List.mem_append] at hstep ⊢
      tauto
    rcases hstep with hstep | hstep
    · exact (hwithin step hstep).mono (Nat.le_refl i) hjk
    · exact (hwithin' step hstep).mono hij (Nat.le_refl k)

/-- What gets through to a failure fails. -/
theorem Reaches.failsWithin (h : t.Reaches i links call j rest handed)
    (h' : t.FailsWithin j rest handed k e) (hij : i ≤ j) (hjk : j ≤ k) :
    t.FailsWithin i links call k e where
  outcome := h.outcome.trans h'.outcome
  steps step hstep := by
    obtain ⟨down, up, hsteps, hwithin⟩ := h.steps
    have hstep : step ∈ down ++ up ∨ step ∈ t.steps j rest handed := by
      rw [hsteps] at hstep
      simp only [List.mem_append] at hstep ⊢
      tauto
    rcases hstep with hstep | hstep
    · exact (hwithin step hstep).mono (Nat.le_refl i) hjk
    · exact (h'.steps step hstep).mono hij (Nat.le_refl k)

/-- A link that forwards a request gets through to the links after it. -/
theorem reaches_of_forwards {link : Link σ} {r : Request} (i : Nat)
    (h : (link.conductAt rest t call).Forwards r) :
    ∃ handed, handed.request = r ∧ t.Reaches i (link :: rest) call (i + 1) rest handed := by
  obtain ⟨handed, resume, hconduct, hr, hresume⟩ := h
  obtain ⟨final, hfinal, hrequest⟩ :=
    hresume ((Link.chain rest t).run handed).1 ((Link.chain rest t).run handed).2
  have hrun : (Link.chain (link :: rest) t).run call =
      (((Link.chain rest t).run handed).1, final) := by
    rw [Link.run_chain_cons, hconduct, Conduct.run, hfinal, Conduct.run]
  have hdelegations : link.delegations rest t call =
      [.of (Link.chain rest t).run handed] := by
    rw [Link.delegations, hconduct, Conduct.delegations, hfinal, Conduct.delegations]
  refine ⟨handed, hr, by rw [hrun], by rw [hrun, hrequest], [.entered i call],
    [.ofResume i (Link.chain rest t).run handed,
      .ofReturn i (Link.chain (link :: rest) t).run call], ?_, ?_⟩
  · simp [steps, hdelegations, Attempt.of]
  · intro step hstep
    simp only [List.cons_append, List.nil_append, List.mem_cons, List.not_mem_nil,
      or_false] at hstep
    rcases hstep with rfl | rfl | rfl <;>
      exact ⟨i, Nat.le_refl i, Nat.lt_succ_self i, rfl⟩

/-- A link that ends the call with a failure fails by itself. -/
theorem failsWithin_of_finish {link : Link σ} {final : Call σ} (i : Nat)
    (h : link.conductAt rest t call = .finish (.error e) final) (hij : i < j) :
    t.FailsWithin i (link :: rest) call j e where
  outcome := by rw [Link.run_chain_cons, h, Conduct.run]
  steps step hstep := by
    rw [steps_of_finish h] at hstep
    simp only [List.mem_cons, List.not_mem_nil, or_false] at hstep
    rcases hstep with rfl | rfl <;> exact ⟨i, Nat.le_refl i, hij, rfl⟩

end Transport

/-- **What layers do in a chain.** With room for their headers, the request gets through to the
rest of the chain with all that they add, if the URL has its room then, and otherwise one of them
ends the call for want of it. -/
theorem Layer.chain_cases (layers : List Layer) (rest : List (Link σ)) (t : Transport σ) (i : Nat)
    (call : Call σ) (hurl : call.request.UrlFits)
    (hheaders : call.request.headers.length + (layers.flatMap headers).length ≤
      call.request.headerCapacity) :
    let next := addAll layers call.request
    let links := layers.map link ++ rest
    (next.UrlFits ∧ ∃ handed : Call σ, handed.request = next ∧
      t.Reaches i links call (i + layers.length) rest handed) ∨
    (¬ next.UrlFits ∧ ∃ needed, t.FailsWithin i links call (i + layers.length)
      (.insufficientCapacity "url" needed call.request.urlCapacity)) := by
  -- By induction on the layers. The URL only grows, so it fits at the end only if it always does.
  induction layers generalizing i call with
  | nil =>
    have hsame : addAll [] call.request = call.request := Request.carrying_nil _
    exact .inl ⟨hsame ▸ hurl, call, hsame.symm, .refl t i rest call⟩
  | cons layer layers ih =>
    intro next links
    rw [List.flatMap_cons, List.length_append] at hheaders
    have hnext : next = addAll layers (call.request.carrying layer.headers layer.parameters) :=
      addAll_cons layer layers call.request
    have hlength : i + 1 + layers.length = i + (layer :: layers).length := by
      simp only [List.length_cons]
      omega
    rcases layer.conduct_cases (layers.map link ++ rest) t hurl (by omega) with
      ⟨hfits, hforwards⟩ | ⟨hfull, needed, final, hfinish⟩
    · obtain ⟨handed, hhanded, hreaches⟩ := Transport.reaches_of_forwards i hforwards
      have hroom : handed.request.headers.length + (layers.flatMap headers).length ≤
          handed.request.headerCapacity := by
        rw [hhanded]
        simp only [Request.carrying, List.length_append]
        omega
      have hrest := ih (i + 1) handed (hhanded ▸ hfits) hroom
      rw [hhanded, ← hnext, hlength] at hrest
      rcases hrest with ⟨hfits', reached, hreached, hreaches'⟩ | ⟨hfull', needed, hfails⟩
      · exact .inl ⟨hfits', reached, hreached, hreaches.trans hreaches' (by omega) (by omega)⟩
      · exact .inr ⟨hfull', needed, hreaches.failsWithin hfails (by omega) (by omega)⟩
    · have hlater : ¬ next.UrlFits := fun hfits => hfull (hnext ▸ hfits : _).of_carrying
      exact .inr ⟨hlater, needed, Transport.failsWithin_of_finish i hfinish (by omega)⟩

/-! ## §4. What is seen of the steps -/

namespace Step

/-- What the transport is handed in a step, and what it answers. -/
def send? : Step σ → Option (Request × Outcome)
  | .sent request _ answer => some (request, answer.outcome)
  | .entered _ _ | .resumed _ _ _ | .returned _ _ _ => none

/-- What comes back to the policy at a position in a step. -/
def outcomeAt? (k : Nat) : Step σ → Option Outcome
  | .resumed i outcome _ => if i = k then some outcome else none
  | .entered _ _ | .sent _ _ _ | .returned _ _ _ => none

theorem send?_eq_none {step : Step σ} {n : Nat} (h : step.position = some n) :
    step.send? = none := by
  cases step with
  | sent _ _ _ => cases h
  | entered _ _ | resumed _ _ _ | returned _ _ _ => rfl

theorem Within.send?_eq_none {i j : Nat} {step : Step σ} (h : step.Within i j) :
    step.send? = none := by
  obtain ⟨_, _, _, hposition⟩ := h
  exact Step.send?_eq_none hposition

theorem outcomeAt?_eq_none {step : Step σ} {k : Nat} (h : step.position ≠ some k) :
    step.outcomeAt? k = none := by
  cases step with
  | resumed i outcome call => exact if_neg fun heq => h (congrArg some heq)
  | entered _ _ | sent _ _ _ | returned _ _ _ => rfl

theorem Within.outcomeAt?_eq_none {i j : Nat} {step : Step σ} (h : step.Within i j) :
    step.outcomeAt? j = none := by
  obtain ⟨n, _, hn, hposition⟩ := h
  refine Step.outcomeAt?_eq_none fun heq => ?_
  have : n = j := by simpa [hposition] using heq
  omega

end Step

namespace Transport

/-- **Induction on the steps of a chain.** What holds of every step of the transport, and of every
step of a policy at one of the positions, holds of all steps of the chain. -/
theorem forall_mem_steps {t : Transport σ} {motive : Step σ → Prop}
    (send : ∀ call, motive (.ofSend t call)) (i : Nat)
    (policy : ∀ (step : Step σ) (n : Nat), i ≤ n → step.position = some n → motive step)
    (links : List (Link σ)) (call : Call σ) :
    ∀ step ∈ t.steps i links call, motive step := by
  induction links generalizing i call with
  | nil =>
    intro step hstep
    obtain rfl := List.mem_singleton.mp hstep
    exact send call
  | cons link rest ih =>
    intro step hstep
    have hbelow (before : Call σ) (step : Step σ) (hstep : step ∈ t.steps (i + 1) rest before) :
        motive step :=
      ih (i + 1) (fun step n hn => policy step n (Nat.le_of_succ_le hn)) before step hstep
    simp only [steps, List.mem_append, List.mem_cons, List.mem_flatMap, List.not_mem_nil,
      or_false] at hstep
    rcases hstep with (rfl | ⟨x, _, hstep | rfl⟩) | rfl
    · exact policy _ i (Nat.le_refl i) rfl
    · exact hbelow x.before step hstep
    · exact policy _ i (Nat.le_refl i) rfl
    · exact policy _ i (Nat.le_refl i) rfl

/-- What comes back to a policy comes back in no step of the policies after it. -/
theorem filterMap_outcomeAt?_steps (t : Transport σ) {i k : Nat} (hk : k < i)
    (links : List (Link σ)) (call : Call σ) :
    (t.steps i links call).filterMap (Step.outcomeAt? k) = [] := by
  refine List.filterMap_eq_nil_iff.mpr (forall_mem_steps (fun call => rfl) i ?_ links call)
  intro step n hn hposition
  refine Step.outcomeAt?_eq_none fun heq => ?_
  have : n = k := by simpa [hposition] using heq
  omega

/-- Every request that is sent is answered by the transport. -/
theorem answered_of_send? (t : Transport σ) (i : Nat) (links : List (Link σ)) (call : Call σ) :
    ∀ sent ∈ (t.steps i links call).filterMap Step.send?,
      ∃ session, sent.2 = (t.send sent.1 session).outcome := by
  intro sent hsent
  obtain ⟨step, hstep, hsent⟩ := List.mem_filterMap.mp hsent
  refine forall_mem_steps (motive := fun step : Step σ => step.send? = some sent →
    ∃ session, sent.2 = (t.send sent.1 session).outcome) ?_ i ?_ links call step hstep hsent
  · rintro call ⟨⟩
    exact ⟨call.toSession, rfl⟩
  · intro step n _ hposition hsent
    rw [Step.send?_eq_none hposition] at hsent
    cases hsent

/-- What is seen of a run that gets through to the rest of a chain is seen there. -/
theorem Reaches.filterMap_steps {α : Type} {t : Transport σ} {i j : Nat}
    {links rest : List (Link σ)} {call handed : Call σ} {f : Step σ → Option α}
    (h : t.Reaches i links call j rest handed)
    (hf : ∀ (step : Step σ), step.Within i j → f step = none) :
    (t.steps i links call).filterMap f = (t.steps j rest handed).filterMap f := by
  obtain ⟨down, up, hsteps, hwithin⟩ := h.steps
  have hdown : down.filterMap f = [] := List.filterMap_eq_nil_iff.mpr fun step hstep =>
    hf step (hwithin step (List.mem_append_left up hstep))
  have hup : up.filterMap f = [] := List.filterMap_eq_nil_iff.mpr fun step hstep =>
    hf step (hwithin step (List.mem_append_right down hstep))
  rw [hsteps, List.filterMap_append, List.filterMap_append, hdown, hup]
  simp

end Transport

/-! ## §5. Attempts -/

/-- Requests that are sent and outcomes of attempts, from attempt number `n` on: in each attempt
the request with its number is sent if its URL has its room, and comes to what the transport
answers. Otherwise nothing is sent any more. -/
inductive Resends (nth : Nat → Request) :
    Nat → List (Request × Outcome) → List Outcome → Prop where
  /-- No attempt is made any more. -/
  | done {n : Nat} : Resends nth n [] []
  /-- An attempt in which the request is sent. -/
  | sent {n : Nat} {sends : List (Request × Outcome)} {outcomes : List Outcome}
      (answer : Outcome) (hfits : (nth n).UrlFits)
      (hmore : Resends nth (n + 1) sends outcomes) :
      Resends nth n ((nth n, answer) :: sends) (answer :: outcomes)
  /-- An attempt without room for the URL. -/
  | full {n : Nat} (needed : Nat) (hfull : ¬ (nth n).UrlFits) :
      Resends nth n [] [.error (.insufficientCapacity "url" needed (nth n).urlCapacity)]

namespace Resends

variable {nth : Nat → Request} {n : Nat} {sends : List (Request × Outcome)}
  {outcomes : List Outcome}

/-- The requests that are sent are those with the numbers from `n` on. -/
theorem request_eq (h : Resends nth n sends outcomes) {i : Nat} {sent : Request × Outcome}
    (hi : sends[i]? = some sent) : sent.1 = nth (n + i) := by
  induction h generalizing i with
  | done => simp at hi
  | @sent n _ _ answer _ _ ih =>
    cases i with
    | zero =>
      obtain rfl : (nth n, answer) = sent := by simpa using hi
      rfl
    | succ i =>
      rw [ih (by simpa using hi), Nat.add_right_comm]
      rfl
  | full _ _ => simp at hi

/-- The outcomes are what the transport answers, and at most one more. -/
theorem outcomes_cases (h : Resends nth n sends outcomes) :
    outcomes = sends.map Prod.snd ∨
      ¬ (nth (n + sends.length)).UrlFits ∧ ∃ needed, outcomes = sends.map Prod.snd ++
        [.error (.insufficientCapacity "url" needed (nth (n + sends.length)).urlCapacity)] := by
  induction h with
  | done => exact .inl rfl
  | @sent n sends _ _ _ _ ih =>
    have hlast : n + 1 + sends.length = n + (sends.length + 1) := by omega
    rcases ih with rfl | ⟨hfull, needed, rfl⟩
    · exact .inl rfl
    · rw [hlast] at hfull
      exact .inr ⟨hfull, needed, by simp [hlast]⟩
  | full needed hfull => exact .inr ⟨hfull, needed, rfl⟩

/-- With room for the URL in every attempt, the outcomes are what the transport answers. -/
theorem outcomes_eq (h : Resends nth n sends outcomes) (hfits : ∀ i, (nth i).UrlFits) :
    outcomes = sends.map Prod.snd := by
  rcases h.outcomes_cases with halike | ⟨hfull, _⟩
  · exact halike
  · exact absurd (hfits _) hfull

/-- With room for the URL in the first attempt, a request is sent. -/
theorem sends_ne_nil (h : Resends nth n sends outcomes) (hfits : (nth n).UrlFits)
    (hattempt : outcomes ≠ []) : sends ≠ [] := by
  cases h with
  | done => exact absurd rfl hattempt
  | sent _ _ _ => exact List.cons_ne_nil _ _
  | full _ hfull => exact absurd hfits hfull

end Resends

namespace Layer

/-- The request that is sent in attempt number `n`, counted from zero, if the layers `back` are
below the retry policy and it is entered with `base`. -/
def resent (back : List Layer) (base : Request) (n : Nat) : Request :=
  base.markHeaders.carrying (back.flatMap headers)
    (List.replicate (n + 1) (back.flatMap parameters)).flatten

/-- The request that attempt number `n` begins with. -/
def begun (back : List Layer) (base : Request) (n : Nat) : Request :=
  base.markHeaders.carrying [] (List.replicate n (back.flatMap parameters)).flatten

theorem addAll_begun (back : List Layer) (base : Request) (n : Nat) :
    addAll back (begun back base n) = resent back base n := by
  simp only [addAll, begun, resent, Request.carrying_carrying, List.nil_append,
    List.replicate_succ', List.flatten_append, List.flatten_singleton]

theorem dropMarkedHeaders_resent (back : List Layer) (base : Request) (n : Nat) :
    (resent back base n).dropMarkedHeaders = begun back base (n + 1) :=
  Request.dropMarkedHeaders_carrying _ _ _

variable {back : List Layer} {base : Request} {n : Nat} {call : Call σ}

/-- An attempt sends the request with its number, and comes to what the transport answers, or it
has no room for the URL and sends nothing. -/
theorem attempt_cases (t : Transport σ) (k : Nat) (hcall : call.request = begun back base n)
    (hurl : call.request.UrlFits)
    (hheaders : base.headers.length + (back.flatMap headers).length ≤ base.headerCapacity) :
    let nth := resent back base n
    let x := Attempt.of (Link.chain (back.map link) t).run call
    let sends := (t.steps k (back.map link) call).filterMap Step.send?
    (nth.UrlFits ∧ x.after.request = nth ∧ sends = [(nth, x.outcome)]) ∨
    (¬ nth.UrlFits ∧ sends = [] ∧
      ∃ needed, x.outcome = .error (.insufficientCapacity "url" needed nth.urlCapacity)) := by
  have hroom : call.request.headers.length + (back.flatMap headers).length ≤
      call.request.headerCapacity := by
    rw [hcall]
    simpa [begun, Request.carrying, Request.markHeaders] using hheaders
  have hnth : addAll back call.request = resent back base n := by
    rw [hcall, addAll_begun]
  have hcases := chain_cases back [] t k call hurl hroom
  rw [hnth, List.append_nil] at hcases
  rcases hcases with ⟨hfits, handed, hhanded, hreaches⟩ | ⟨hfull, needed, hfails⟩
  · refine .inl ⟨hfits, hreaches.request.trans hhanded, ?_⟩
    rw [hreaches.filterMap_steps fun _ hstep => hstep.send?_eq_none]
    show [(handed.request, (t.exchange handed).1)] = _
    rw [hhanded]
    exact congrArg (fun outcome => [(_, outcome)]) hreaches.outcome.symm
  · have hnone := List.filterMap_eq_nil_iff.mpr fun step hstep =>
      (hfails.steps step hstep).send?_eq_none
    have herror := hfails.outcome
    rw [hcall] at herror
    exact .inr ⟨hfull, hnone, needed, herror⟩

/-- **All attempts of a retry policy above some layers**, from number `n` on. -/
theorem attemptsFrom_resends (o : RetryOptions) (t : Transport σ) (k left i : Nat)
    (hcall : call.request = begun back base n)
    (hurl : call.request.UrlFits)
    (hheaders : base.headers.length + (back.flatMap headers).length ≤ base.headerCapacity) :
    let attempts := o.attemptsFrom (Link.chain (back.map link) t).run left i call
    Resends (resent back base) n
      (attempts.flatMap fun x => (t.steps k (back.map link) x.before).filterMap Step.send?)
      (attempts.map Attempt.outcome) := by
  -- By induction on the attempts left. What an attempt leaves at the mark is what the next one
  -- begins with.
  induction left generalizing i n call with
  | zero =>
    rcases attempt_cases t k hcall hurl hheaders with
      ⟨hfits, _, hsends⟩ | ⟨hfull, hsends, needed, herror⟩
    · simpa [RetryOptions.attemptsFrom, Attempt.of, hsends] using Resends.sent _ hfits .done
    · have hlast : Resends (resent back base) n [] _ := .full needed hfull
      simpa [RetryOptions.attemptsFrom, Attempt.of, hsends, ← herror] using hlast
  | succ left ih =>
    simp only [RetryOptions.attemptsFrom, List.flatMap_cons, List.map_cons]
    rcases attempt_cases t k hcall hurl hheaders with
      ⟨hfits, hafter, hsends⟩ | ⟨hfull, hsends, needed, herror⟩
    · rw [show (Attempt.of (Link.chain (back.map link) t).run call).before = call from rfl, hsends]
      refine .sent _ hfits ?_
      cases hv : o.verdict i ((Link.chain (back.map link) t).run call).1
          ((Link.chain (back.map link) t).run call).2 with
      | leave final => exact .done
      | again next =>
        obtain ⟨_, _, hnext⟩ := RetryOptions.frame_of_again hv
        have hbegins : next.request = begun back base (n + 1) := by
          rw [hnext, ← dropMarkedHeaders_resent, ← hafter]
          rfl
        exact ih (i + 1) hbegins (by rw [hbegins]; exact hfits)
    · -- For want of room, no other attempt is made.
      have hv : o.verdict i ((Link.chain (back.map link) t).run call).1
          ((Link.chain (back.map link) t).run call).2 =
            .leave ((Link.chain (back.map link) t).run call).2 := by
        have houtcome : ((Link.chain (back.map link) t).run call).1 = _ := herror
        simp [RetryOptions.verdict, houtcome, RetryOptions.shouldRetry, Error.isRetryable]
      rw [show (Attempt.of (Link.chain (back.map link) t).run call).before = call from rfl, hsends,
        hv, herror]
      exact .full needed hfull

end Layer

/-! ## §6. Runs -/

section Retry

variable (o : RetryOptions) (rest : List (Link σ)) (t : Transport σ) (k : Nat) (call : Call σ)

/-- What is sent below a retry policy is what is sent in its attempts. -/
theorem filterMap_send?_steps_retry :
    (t.steps k (.retry o :: rest) call).filterMap Step.send? =
      (o.attempts (Link.chain rest t) call).flatMap fun x =>
        (t.steps (k + 1) rest x.before).filterMap Step.send? := by
  simp [Transport.steps, Link.delegations_retry, List.filterMap_cons, List.filterMap_flatMap,
    Step.send?, Step.ofResume, Step.ofReturn]

/-- What comes back to a retry policy is what its attempts come to. -/
theorem filterMap_outcomeAt?_steps_retry :
    (t.steps k (.retry o :: rest) call).filterMap (Step.outcomeAt? k) =
      (o.attempts (Link.chain rest t) call).map Attempt.outcome := by
  have hbelow (x : Attempt σ) :
      (t.steps (k + 1) rest x.before).filterMap (Step.outcomeAt? k) = [] :=
    t.filterMap_outcomeAt?_steps (Nat.lt_succ_self k) rest x.before
  have hsame : ∀ x ∈ o.attempts (Link.chain rest t) call,
      ((Link.chain rest t).run x.before).1 = x.outcome := by
    intro x hx
    rw [o.attempts_eq] at hx
    rw [RetryOptions.eq_of_mem_attemptsFrom hx]
    rfl
  simp only [Transport.steps, Link.delegations_retry, List.filterMap_cons, List.filterMap_append,
    List.filterMap_flatMap, List.filterMap_nil, hbelow, Step.outcomeAt?, Step.ofResume,
    Step.ofReturn, if_true, List.nil_append, List.append_nil]
  rw [← List.map_eq_flatMap]
  exact List.map_congr_left hsame

end Retry

/-- The request that is sent in attempt number `n`, counted from zero, by a chain that has some
layers before a retry policy and some after it. -/
def Layer.sentIn (front back : List Layer) (r : Request) (n : Nat) : Request :=
  { r with
    url := Request.urlWith r.url (front.flatMap parameters ++
      (List.replicate (n + 1) (back.flatMap parameters)).flatten)
    headers := r.headers ++ front.flatMap headers ++ back.flatMap headers
    mark := r.headers.length + (front.flatMap headers).length }

theorem Layer.resent_addAll (front back : List Layer) (r : Request) :
    resent back (addAll front r) = sentIn front back r := by
  funext n
  simp [resent, addAll, sentIn, Request.carrying, Request.markHeaders, Request.urlWith_append]

/-- What is sent and what comes back to the retry policy in a run, with room for what is added
once. -/
theorem Layer.steps_resends (front back : List Layer) (o : RetryOptions) (t : Transport σ)
    (call : Call σ) (hroom : (sentIn front back call.request 0).Fits) :
    let links : List (Link σ) := front.map link ++ .retry o :: back.map link
    let outcomes := (t.steps 1 links call).filterMap (Step.outcomeAt? (front.length + 1))
    outcomes ≠ [] ∧ Resends (sentIn front back call.request) 0
      ((t.steps 1 links call).filterMap Step.send?) outcomes := by
  intro links outcomes
  have hbase : (addAll front call.request).UrlFits := by
    have hfirst := hroom.url
    rw [← resent_addAll] at hfirst
    exact (hfirst.of_carrying :)
  have hheaders := hroom.headers
  simp only [sentIn, List.length_append] at hheaders
  -- The layers before the retry policy get through to it with all that they add.
  obtain ⟨handed, hhanded, hreaches⟩ : ∃ handed : Call σ,
      handed.request = addAll front call.request ∧
        t.Reaches 1 links call (1 + front.length) (.retry o :: back.map link) handed := by
    rcases chain_cases front (.retry o :: back.map link) t 1 call hbase.of_carrying
      (by omega) with ⟨_, hreached⟩ | ⟨hfull, _⟩
    · exact hreached
    · exact absurd hbase hfull
  rw [Nat.add_comm] at hreaches
  have houtcomes :
      outcomes = (o.attempts (Link.chain (back.map link) t) handed).map Attempt.outcome := by
    rw [← filterMap_outcomeAt?_steps_retry o _ t (front.length + 1)]
    exact hreaches.filterMap_steps fun _ hstep => hstep.outcomeAt?_eq_none
  have hsends := hreaches.filterMap_steps fun _ hstep => hstep.send?_eq_none
  rw [hsends, filterMap_send?_steps_retry, houtcomes, o.attempts_eq, ← resent_addAll]
  constructor
  · cases o.maxAttempts - 1 <;> simp [RetryOptions.attemptsFrom]
  · refine attemptsFrom_resends o t _ _ 1 (by simp [hhanded, begun]) ?_ ?_
    · rw [hhanded]
      exact hbase
    · simp only [addAll, Request.carrying, List.length_append]
      omega

/-- **Retried requests are alike but for the parameters added below the retry policy.** In a run
of a chain of one retry policy and, before and after it in any order, policies that put the API
version, the user agent or a token on the request or log it, with room for what they add to it
once, at least one request is sent. The requests that are sent have the same method, content and
headers, and the parameters added below the retry policy are in the URL as many times as there
were attempts. Every attempt comes to what the transport answers, but for a last one in which the
URL has no room any more, and nothing is sent. If no parameter is added below the retry policy,
all requests that are sent are equal, every attempt comes to what the transport answers, and so
none fails for want of room unless the transport does. -/
theorem retried_requests_alike (front back : List Layer) (o : RetryOptions) (t : Transport σ)
    (call : Call σ) (hroom : (Layer.sentIn front back call.request 0).Fits) :
    let links : List (Link σ) := front.map Layer.link ++ .retry o :: back.map Layer.link
    let steps := t.steps 1 links call
    let sends := steps.filterMap Step.send?
    let outcomes := steps.filterMap (Step.outcomeAt? (front.length + 1))
    let nth := Layer.sentIn front back call.request
    Exchange.Notes (Pipeline.mk (Link.notedFrom 1 links) t.noted).run
        (Pipeline.mk (links.map Link.toPolicy) t).run (t.steps 1 links) ∧
      sends ≠ [] ∧
      (∀ (n : Nat) sent, sends[n]? = some sent → sent.1 = nth n) ∧
      (outcomes = sends.map Prod.snd ∨
        ¬ (nth sends.length).UrlFits ∧ ∃ needed, outcomes = sends.map Prod.snd ++
          [.error (.insufficientCapacity "url" needed call.request.urlCapacity)]) ∧
      (back.flatMap Layer.parameters = [] →
        (∀ sent ∈ sends, sent.1 = nth 0) ∧ outcomes = sends.map Prod.snd ∧
        ((∀ r session, ¬ LacksRoom (t.send r session).outcome) →
          ∀ outcome ∈ outcomes, ¬ LacksRoom outcome)) := by
  intro links steps sends outcomes nth
  obtain ⟨hattempt, hresends⟩ := Layer.steps_resends front back o t call hroom
  refine ⟨Link.notes_chain links t 1, hresends.sends_ne_nil hroom.url hattempt,
    fun n sent hsent => ?_, ?_, fun hnone => ?_⟩
  · rw [hresends.request_eq hsent, Nat.zero_add]
  · have hcases := hresends.outcomes_cases
    rw [Nat.zero_add] at hcases
    exact hcases
  · -- The URL does not grow, so there is room for it in every attempt.
    have hsame (n : Nat) : nth n = nth 0 := by
      simp [nth, Layer.sentIn, hnone]
    have hfits (n : Nat) : (nth n).UrlFits := by
      rw [hsame]
      exact hroom.url
    have hanswers : outcomes = sends.map Prod.snd := hresends.outcomes_eq hfits
    refine ⟨fun sent hsent => ?_, hanswers, fun hgrants outcome houtcome => ?_⟩
    · obtain ⟨n, hn⟩ := List.getElem?_of_mem hsent
      rw [hresends.request_eq hn]
      exact hsame _
    · rw [hanswers] at houtcome
      obtain ⟨sent, hsent, rfl⟩ := List.mem_map.mp houtcome
      obtain ⟨session, hanswer⟩ := t.answered_of_send? 1 links call sent hsent
      rw [hanswer]
      exact hgrants sent.1 session

/-- With the API version above the retry policy and the other policies below it, both requests are
equal, though there is room for one attempt and no more. -/
theorem retried_requests_alike_of_version_above :
    let front : List Layer := [.apiVersion ⟨.queryParameter, "api-version", "2024"⟩ rfl]
    let back : List Layer := [.telemetry "nimbus-rs-core/1.0", .bearer ⟨"secret"⟩, .logging]
    let o : RetryOptions := { maxRetries := 1 }
    let t := Transport.scripted Script.nextReply
    let call : Call Script := {
      peer := { replies := [{ outcome := .ok { status := 503 } }] }
      request := {
        method := .get, url := "https://e.example/", urlCapacity := 35, headerCapacity := 2 } }
    let sends := (t.steps 1 (front.map Layer.link ++ .retry o :: back.map Layer.link)
      call).filterMap Step.send?
    (Layer.sentIn front back call.request 0).Fits ∧ back.flatMap Layer.parameters = [] ∧
      sends.length = 2 ∧ ∀ sent ∈ sends, sent.1 = Layer.sentIn front back call.request 0 := by
  intro front back o t call sends
  have hroom : (Layer.sentIn front back call.request 0).Fits := ⟨by decide, by decide⟩
  obtain ⟨_, _, _, _, halike⟩ := retried_requests_alike front back o t call hroom
  exact ⟨hroom, rfl, by decide, (halike rfl).1⟩

/-- With the API version below the retry policy, the second request has it twice, and if there is
room for it once, the second attempt fails. -/
theorem parameter_repeated_below_retry :
    let back : List Layer := [.apiVersion ⟨.queryParameter, "api-version", "2024"⟩ rfl]
    let o : RetryOptions := { maxRetries := 1 }
    let t := Transport.scripted Script.nextReply
    let call (room : Nat) : Call Script := {
      peer := { replies := [{ outcome := .ok { status := 503 } }] }
      request := {
        method := .get, url := "https://e.example/", urlCapacity := room, headerCapacity := 16 } }
    let steps (room : Nat) := t.steps 1 (.retry o :: back.map Layer.link) (call room)
    (Layer.sentIn [] back (call 35).request 0).Fits ∧
      ((steps 2048).filterMap Step.send?).map (fun sent => sent.1.url) =
        ["https://e.example/?api-version=2024",
          "https://e.example/?api-version=2024&api-version=2024"] ∧
      (steps 35).filterMap (Step.outcomeAt? 1) =
        [.ok { status := 503 }, .error (.insufficientCapacity "url" 52 35)] := by
  exact ⟨⟨by decide, by decide⟩, by decide, by decide⟩

end HttpPipeline
