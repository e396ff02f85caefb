import HttpPipeline.Proofs.Chain.Conduct

/-! # The order in which a chain runs

  The links of a chain note when they are entered, when they go on with what came back, and when
  they return; the transport notes when it is handed a request. As with every journal, the chain
  of noting links is a chain like any other, and does the same otherwise. What is noted is
  `Transport.steps`: a link is entered, then for each of its delegations come the steps of the
  rest of the chain and its own going on, and it returns. From that single law follow the courses
  of a run: down the chain and up again while every link delegates once, back from the first link
  that ends the call, and down again from the next link for every further delegation.
-/

namespace HttpPipeline

variable {σ : Type}

/-! ## §1. Steps -/

/-- Something that a chain does in a run. -/
inductive Step (σ : Type) where
  /-- The policy at a position is entered with a call. -/
  | entered (position : Nat) (call : Call σ)
  /-- The transport is handed a request in a session, and this comes of it. -/
  | sent (request : Request) (session : Session σ) (sent : Sent σ)
  /-- The policy at a position goes on with what came back. -/
  | resumed (position : Nat) (outcome : Outcome) (call : Call σ)
  /-- The policy at a position returns. -/
  | returned (position : Nat) (outcome : Outcome) (call : Call σ)

namespace Step

/-- The position of the policy whose step it is; the transport has none. -/
def position : Step σ → Option Nat
  | .entered i _ | .resumed i _ _ | .returned i _ _ => some i
  | .sent _ _ _ => none

/-- The transport is handed the request of a call. -/
def ofSend (t : Transport σ) (call : Call σ) : Step σ :=
  .sent call.request call.toSession (t.send call.request call.toSession)

/-- The policy at a position goes on with what the rest of the chain made of a call. -/
def ofResume (i : Nat) (rest : Exchange σ) (call : Call σ) : Step σ :=
  .resumed i (rest call).1 (rest call).2

/-- The policy at a position, with which a chain begins, returns what it made of a call. -/
def ofReturn (i : Nat) (chain : Exchange σ) (call : Call σ) : Step σ :=
  .returned i (chain call).1 (chain call).2

end Step

/-- The steps of a chain whose policies have the positions from `i` on. -/
def Transport.steps (t : Transport σ) : (i : Nat) → List (Link σ) → Call σ → List (Step σ)
  | _, [], call => [.ofSend t call]
  | i, link :: rest, call =>
    .entered i call ::
      ((link.delegations rest t call).flatMap fun x =>
        t.steps (i + 1) rest x.before ++ [.ofResume i (Link.chain rest t).run x.before]) ++
      [.ofReturn i (Link.chain (link :: rest) t).run call]

/-! ## §2. Noting links -/

/-- The conduct, noting what it goes on with and what it returns. -/
def Conduct.noted (i : Nat) : Conduct σ → List (Step σ) → Conduct (Journaled σ (Step σ))
  | .finish outcome call, entries =>
    .finish outcome (call.journaled (entries ++ [.returned i outcome call]))
  | .delegate call resume, entries =>
    .delegate (call.journaled entries) fun outcome after =>
      (resume outcome after.plain).noted i
        (after.peer.entries ++ [.resumed i outcome after.plain])

/-- The link at position `i`, noting its steps. -/
def Link.noted (i : Nat) (link : Link σ) : Policy (Journaled σ (Step σ)) where
  name := link.name
  process next call :=
    ((link.conduct next.remaining next.transport call.plain).noted i
      (call.peer.entries ++ [.entered i call.plain])).run next.run

/-- The links from position `i` on, noting their steps. -/
def Link.notedFrom : (i : Nat) → List (Link σ) → List (Policy (Journaled σ (Step σ)))
  | _, [] => []
  | i, link :: rest => link.noted i :: notedFrom (i + 1) rest

/-- The transport, noting when it is handed a request. -/
def Transport.noted (t : Transport σ) : Transport (Journaled σ (Step σ)) where
  name := t.name
  send request session :=
    let sent := t.send request session.plain
    { outcome := sent.outcome
      session := sent.session.withPeer
        ⟨sent.session.peer, session.peer.entries ++ [.sent request session.plain sent]⟩
      events := sent.events }

/-- Whether an exchange does what another does, and notes these steps. -/
def Exchange.Notes (noting : Exchange (Journaled σ (Step σ))) (rest : Exchange σ)
    (steps : Call σ → List (Step σ)) : Prop :=
  ∀ call entries, noting (call.journaled entries) =
    ((rest call).1, (rest call).2.journaled (entries ++ steps call))

theorem Link.length_notedFrom (i : Nat) (links : List (Link σ)) :
    (Link.notedFrom i links).length = links.length := by
  induction links generalizing i with
  | nil => rfl
  | cons link rest ih => exact congrArg (· + 1) (ih (i + 1))

/-- What a noting conduct does at a rest of the chain that notes its steps. -/
theorem Conduct.run_noted {noting : Exchange (Journaled σ (Step σ))} {rest : Exchange σ}
    {steps : Call σ → List (Step σ)} (h : noting.Notes rest steps) (i : Nat)
    (conduct : Conduct σ) (entries : List (Step σ)) :
    (conduct.noted i entries).run noting =
      ((conduct.run rest).1, (conduct.run rest).2.journaled (entries ++
        ((conduct.delegations rest).flatMap fun x =>
          steps x.before ++ [.ofResume i rest x.before]) ++
        [.returned i (conduct.run rest).1 (conduct.run rest).2])) := by
  -- By induction on the conduct: each delegation adds the steps of the rest and one of its own.
  induction conduct generalizing entries with
  | finish outcome call => simp [Conduct.noted, Conduct.run, Conduct.delegations]
  | delegate call resume ih =>
    simp only [Conduct.noted, Conduct.run, Conduct.delegations]
    rw [h call entries]
    refine (ih _ _ _).trans ?_
    simp [Attempt.of, Step.ofResume]

/-- **A chain of noting links does what the chain does, and notes its steps.** -/
theorem Link.notes_chain (links : List (Link σ)) (t : Transport σ) (i : Nat) :
    Exchange.Notes (Next.ofChain (Link.notedFrom i links) t.noted).run
      (Link.chain links t).run (t.steps i links) := by
  induction links generalizing i with
  | nil => exact fun call entries => rfl
  | cons link rest ih =>
    intro call entries
    have hremaining :
        (Next.ofChain (Link.notedFrom (i + 1) rest) t.noted).remaining = rest.length := by
      rw [Next.remaining_ofChain, Link.length_notedFrom]
    have htransport :
        (Next.ofChain (Link.notedFrom (i + 1) rest) t.noted).transport = t.name := by
      rw [Next.transport_ofChain]
      rfl
    -- The noting link sees as many policies after it as the link, so it has the same conduct.
    have hnoting : (Next.ofChain (Link.notedFrom i (link :: rest)) t.noted).run
        (call.journaled entries) =
          ((link.conductAt rest t call).noted i (entries ++ [.entered i call])).run
            (Next.ofChain (Link.notedFrom (i + 1) rest) t.noted).run := by
      show ((link.conduct _ _ _).noted i _).run _ = _
      rw [hremaining, htransport]
      rfl
    rw [hnoting, Conduct.run_noted (ih (i + 1)), ← Link.run_chain_cons]
    simp [Transport.steps, Step.ofReturn, Link.delegations]

/-! ## §3. Courses

  In a run of some links, the first ones `front` may all delegate once, whatever the links `back`
  after them do.
-/

namespace Transport

variable (t : Transport σ) (back : List (Link σ))

/-- Whether every link of `front` delegates once, each on the call that the one before it hands
on. -/
def Passes : (front : List (Link σ)) → Call σ → Prop
  | [], _ => True
  | link :: front, call =>
    (link.delegations (front ++ back) t call).length = 1 ∧
      Passes front (link.conductAt (front ++ back) t call).handsOn

/-- What becomes of a call on its way down through `front`: each link does to it what it does
before it first hands it on. -/
def handedDown : (front : List (Link σ)) → Call σ → Call σ
  | [], call => call
  | link :: front, call => handedDown front (link.conductAt (front ++ back) t call).handsOn

/-- The links of `front` are entered in order. -/
def descent : (i : Nat) → (front : List (Link σ)) → Call σ → List (Step σ)
  | _, [], _ => []
  | i, link :: front, call =>
    .entered i call :: descent (i + 1) front (link.conductAt (front ++ back) t call).handsOn

/-- The links of `front` go on and return in reverse order, each with what the next one
returned. -/
def ascent : (i : Nat) → (front : List (Link σ)) → Call σ → List (Step σ)
  | _, [], _ => []
  | i, link :: front, call =>
    let handed := (link.conductAt (front ++ back) t call).handsOn
    ascent (i + 1) front handed ++
      [.ofResume i (Link.chain (front ++ back) t).run handed,
        .ofReturn i (Link.chain (link :: front ++ back) t).run call]

/-- Only links of `front` take steps on the way down. -/
theorem position_of_mem_descent {i : Nat} {front : List (Link σ)} {call : Call σ}
    {step : Step σ} (h : step ∈ t.descent back i front call) :
    ∃ j < i + front.length, step.position = some j := by
  induction front generalizing i call with
  | nil => cases h
  | cons link front ih =>
    rcases List.mem_cons.mp h with rfl | h
    · exact ⟨i, by simp, rfl⟩
    · obtain ⟨j, hj, hposition⟩ := ih h
      exact ⟨j, by simp only [List.length_cons]; omega, hposition⟩

/-- Only links of `front` take steps on the way up. -/
theorem position_of_mem_ascent {i : Nat} {front : List (Link σ)} {call : Call σ}
    {step : Step σ} (h : step ∈ t.ascent back i front call) :
    ∃ j < i + front.length, step.position = some j := by
  induction front generalizing i call with
  | nil => cases h
  | cons link front ih =>
    rcases List.mem_append.mp h with h | h
    · obtain ⟨j, hj, hposition⟩ := ih h
      exact ⟨j, by simp only [List.length_cons]; omega, hposition⟩
    · simp only [List.mem_cons, List.not_mem_nil, or_false] at h
      rcases h with rfl | rfl
      · exact ⟨i, by simp, rfl⟩
      · exact ⟨i, by simp, rfl⟩

end Transport

/-- A link that delegates once does so on the call that it hands on first. -/
theorem Link.delegations_eq_of_length {link : Link σ} {rest : List (Link σ)} {t : Transport σ}
    {call : Call σ} (h : (link.delegations rest t call).length = 1) :
    link.delegations rest t call =
      [.of (chain rest t).run (link.conductAt rest t call).handsOn] := by
  obtain ⟨x, hx⟩ := List.length_eq_one_iff.mp h
  have hof : x = .of (chain rest t).run x.before :=
    Conduct.eq_of_mem_delegations (hx ▸ List.mem_singleton.mpr rfl)
  have hbefore : x.before = (link.conductAt rest t call).handsOn :=
    Conduct.before_of_delegations hx
  rw [hx, ← hbefore, ← hof]

/-- **The steps of a chain** whose first links delegate once are these links on the way down, the
steps of the others, and the first links again on the way up. -/
theorem Transport.steps_append {t : Transport σ} {back : List (Link σ)} (i : Nat)
    {front : List (Link σ)} {call : Call σ} (h : t.Passes back front call) :
    t.steps i (front ++ back) call =
      t.descent back i front call ++
        t.steps (i + front.length) back (t.handedDown back front call) ++
        t.ascent back i front call := by
  -- By induction on the first links. The first of them has one delegation, and its steps are
  -- those of the links after it, one position further down.
  induction front generalizing i call with
  | nil => simp [Transport.descent, Transport.ascent, Transport.handedDown]
  | cons link front ih =>
    obtain ⟨hlength, hpasses⟩ := h
    have hrest := ih (i + 1) hpasses
    have hposition : i + 1 + front.length = i + (link :: front).length := by
      simp only [List.length_cons]
      omega
    rw [hposition] at hrest
    simp [Transport.steps, Link.delegations_eq_of_length hlength, hrest, Transport.descent,
      Transport.ascent, Transport.handedDown, Attempt.of]

/-- A link that ends the call delegates nothing, and returns what it ends the call with. -/
theorem Transport.steps_of_finish {t : Transport σ} {link : Link σ} {back : List (Link σ)}
    {call after : Call σ} {outcome : Outcome}
    (h : link.conductAt back t call = .finish outcome after) (i : Nat) :
    t.steps i (link :: back) call = [.entered i call, .returned i outcome after] := by
  have hdelegations : link.delegations back t call = [] := by
    simp only [Link.delegations, h, Conduct.delegations]
  have hreturned : (Link.chain (link :: back) t).run call = (outcome, after) := by
    simp only [Link.run_chain_cons, h, Conduct.run]
  rw [Transport.steps, hdelegations, Step.ofReturn, hreturned]
  rfl

/-! ## §4. Runs -/

/-- **A pipeline runs its policies in order.** Noting policies and a noting transport do what the
others do, and note the steps of the run. If every policy delegates once, the policies are entered
in order, the transport is handed the request with all of their changes, and the policies go on in
reverse, each with what the next one returned. If the policies before one delegate once, and that
one ends the call, neither a policy after it nor the transport takes a step. If it delegates, the
policies after it are entered anew for each delegation, from the next one on. -/
theorem chain_runs_in_order (links : List (Link σ)) (t : Transport σ) (call : Call σ) :
    Exchange.Notes (Pipeline.mk (Link.notedFrom 1 links) t.noted).run
      (Pipeline.mk (links.map Link.toPolicy) t).run (t.steps 1 links) ∧
    (t.Passes [] links call →
      t.steps 1 links call =
        t.descent [] 1 links call ++
          [.ofSend t (t.handedDown [] links call)] ++
          t.ascent [] 1 links call) ∧
    ∀ front link back, links = front ++ link :: back → t.Passes (link :: back) front call →
      let reached := t.handedDown (link :: back) front call
      let k := 1 + front.length
      (∀ outcome after, link.conductAt back t reached = .finish outcome after →
        t.steps 1 links call =
          t.descent (link :: back) 1 front call ++
            [.entered k reached, .returned k outcome after] ++
            t.ascent (link :: back) 1 front call ∧
        ∀ step ∈ t.steps 1 links call, ∃ j ≤ k, step.position = some j) ∧
      t.steps 1 links call =
        t.descent (link :: back) 1 front call ++
          (.entered k reached ::
            ((link.delegations back t reached).flatMap fun x =>
              t.steps (k + 1) back x.before ++
                [.ofResume k (Link.chain back t).run x.before]) ++
            [.ofReturn k (Link.chain (link :: back) t).run reached]) ++
          t.ascent (link :: back) 1 front call := by
  refine ⟨Link.notes_chain links t 1, fun hpasses => ?_, ?_⟩
  · have hsteps := @Transport.steps_append _ t [] 1 links call hpasses
    rwa [List.append_nil] at hsteps
  · rintro front link back rfl hpasses reached k
    have hsteps := Transport.steps_append 1 hpasses
    constructor
    · intro outcome after hfinish
      rw [Transport.steps_of_finish hfinish] at hsteps
      refine ⟨hsteps, fun step hstep => ?_⟩
      -- The links before take their steps further up, and the link takes its own.
      rw [hsteps, List.mem_append, List.mem_append] at hstep
      rcases hstep with (hstep | hstep) | hstep
      · obtain ⟨j, hj, hposition⟩ := t.position_of_mem_descent _ hstep
        exact ⟨j, Nat.le_of_lt hj, hposition⟩
      · simp only [List.mem_cons, List.not_mem_nil, or_false] at hstep
        rcases hstep with rfl | rfl
        · exact ⟨k, Nat.le_refl k, rfl⟩
        · exact ⟨k, Nat.le_refl k, rfl⟩
      · obtain ⟨j, hj, hposition⟩ := t.position_of_mem_ascent _ hstep
        exact ⟨j, Nat.le_of_lt hj, hposition⟩
    · rw [hsteps, Transport.steps]

/-- A policy that runs the rest of the chain twice, between two recorders, and one that answers by
itself in its place. -/
theorem chain_runs_in_order_twice_or_not :
    let t : Transport Unit :=
      { name := "echo", send := fun _ session => { outcome := .ok { status := 200 }, session } }
    let r : Request := { method := .get, url := "/a", urlCapacity := 64, headerCapacity := 4 }
    let call : Call Unit := { peer := (), request := r }
    let outer : Link Unit := .recorder "outer"
    let inner : Link Unit := .recorder "inner"
    t.Passes [.repeating 2, inner] [outer] call ∧
      (t.steps 1 [outer, .repeating 2, inner] call).map Step.position =
        [some 1, some 2,
          some 3, none, some 3, some 3, some 2,
          some 3, none, some 3, some 3, some 2,
          some 2, some 1, some 1] ∧
      t.Passes [.shortCircuit 204, inner] [outer] call ∧
      (t.steps 1 [outer, .shortCircuit 204, inner] call).map Step.position =
        [some 1, some 2, some 2, some 1, some 1] ∧
      t.Passes [] [outer, inner] call ∧
      (t.steps 1 [outer, inner] call).map Step.position =
        [some 1, some 2, none, some 2, some 2, some 1, some 1] := by
  intro t r call outer inner
  have houter (back : List (Link Unit)) : t.Passes back [outer] call := ⟨rfl, trivial⟩
  have hboth : t.Passes [] [outer, inner] call := ⟨rfl, rfl, trivial⟩
  obtain ⟨-, -, htwice⟩ := chain_runs_in_order [outer, .repeating 2, inner] t call
  obtain ⟨-, -, hnot⟩ := chain_runs_in_order [outer, .shortCircuit 204, inner] t call
  obtain ⟨-, hpasses, -⟩ := chain_runs_in_order [outer, inner] t call
  refine ⟨houter _, ?_, houter _, ?_, hboth, ?_⟩
  · rw [(htwice [outer] (.repeating 2) [inner] rfl (houter _)).2]
    rfl
  · rw [((hnot [outer] (.shortCircuit 204) [inner] rfl (houter _)).1 _ _ rfl).1]
    rfl
  · rw [hpasses hboth]
    rfl

end HttpPipeline
