import HttpPipeline.Proofs.Assembly.Timing
import HttpPipeline.Proofs.Journal

/-! # The race of an exchange

  While the client is at work, its reply, the deadline and the cancellation are waited for at
  once. Whenever the exchange is woken it looks around in a fixed order: at the cancellation, then
  at the reply, and at the deadline last. It ends at the first instant at which it finds
  something, with what it finds first there; who wins the race, ties included, follows from that
  alone. Main statement: how an exchange ends and what the client is asked, for every order of the
  three instants.
-/

namespace HttpPipeline

variable {σ : Type}

/-! ## §1. Looking around -/

namespace Context

/-- What an exchange whose reply is due at an instant finds when it looks around at another. -/
def poll (ctx : Context) (replyAt instant : Nat) : Option Finish :=
  if ctx.isCancelled instant then some (.cancelled instant)
  else if replyAt ≤ instant then some (.replied instant)
  else if ctx.isExpired instant then some (.expired instant)
  else none

/-- Whether an exchange that begins now finds this, at an instant at which it finds something for
the first time. -/
structure FindsFirst (ctx : Context) (now replyAt : Nat) (finish : Finish) : Prop where
  start : now ≤ finish.instant
  nothing : ∀ i, now ≤ i → i < finish.instant → ctx.poll replyAt i = none
  found : ctx.poll replyAt finish.instant = some finish

variable {ctx : Context} {now replyAt instant : Nat}

/-- There is nothing to find while work may still begin and the reply is not due. -/
theorem poll_eq_none_iff :
    ctx.poll replyAt instant = none ↔ ctx.check instant = .ok () ∧ instant < replyAt := by
  unfold poll check
  cases ctx.isCancelled instant with
  | true => simp
  | false =>
    by_cases hreply : replyAt ≤ instant
    · simp [hreply, Nat.not_lt.mpr hreply]
    · cases ctx.isExpired instant <;> simp [hreply, Nat.lt_of_not_le hreply]

theorem poll_of_cancelled {c : Nat} (hc : ctx.cancelAt = some c) (hle : c ≤ instant) :
    ctx.poll replyAt instant = some (.cancelled instant) := by
  simp [poll, isCancelled_of_le hc hle]

theorem poll_of_replied (hc : ∀ c, ctx.cancelAt = some c → instant < c)
    (hreply : replyAt ≤ instant) : ctx.poll replyAt instant = some (.replied instant) := by
  simp [poll, isCancelled_eq_false_iff.mpr hc, hreply]

theorem poll_of_expired {d : Int} (hc : ∀ c, ctx.cancelAt = some c → instant < c)
    (hreply : instant < replyAt) (hd : ctx.deadline = some d) (hle : d ≤ (instant : Int)) :
    ctx.poll replyAt instant = some (.expired instant) := by
  have hexpired : ctx.isExpired instant = true := isExpired_iff.mpr ⟨d, hd, hle⟩
  simp [poll, isCancelled_eq_false_iff.mpr hc, Nat.not_le.mpr hreply, hexpired]

/-- There is one first thing to find. -/
theorem FindsFirst.unique {f g : Finish} (hf : ctx.FindsFirst now replyAt f)
    (hg : ctx.FindsFirst now replyAt g) : f = g := by
  rcases Nat.lt_trichotomy f.instant g.instant with hlt | heq | hlt
  · have hnone := hg.nothing f.instant hf.start hlt
    rw [hf.found] at hnone
    cases hnone
  · have hfound := hf.found
    rw [heq, hg.found] at hfound
    exact (Option.some.inj hfound).symm
  · have hnone := hf.nothing g.instant hg.start hlt
    rw [hg.found] at hnone
    cases hnone

/-- An exchange that may begin finds nothing before an instant that is not later than any of the
three. -/
theorem poll_eq_none_of_lt {until' i : Nat} (hreply : until' ≤ replyAt)
    (hc : ∀ c, ctx.cancelAt = some c → until' ≤ c)
    (hd : ∀ d, ctx.deadline = some d → (until' : Int) ≤ d) (hi : i < until') :
    ctx.poll replyAt i = none := by
  refine poll_eq_none_iff.mpr ⟨check_eq_ok_iff.mpr ⟨fun d h => ?_, fun c h => ?_⟩, by omega⟩
  · have := hd d h
    omega
  · have := hc c h
    omega

/-- The cancellation is found first if it comes before the others. -/
theorem findsFirst_cancelled {c : Nat} (hnow : now ≤ c) (hc : ctx.cancelAt = some c)
    (hreply : c ≤ replyAt) (hd : ∀ d, ctx.deadline = some d → (c : Int) ≤ d) :
    ctx.FindsFirst now replyAt (.cancelled c) where
  start := hnow
  nothing _ _ hi := poll_eq_none_of_lt hreply (fun c' h => by simp_all) hd hi
  found := poll_of_cancelled hc (Nat.le_refl c)

/-- The deadline is found first if it comes before the others. -/
theorem findsFirst_expired {instant : Nat} (hnow : now ≤ instant)
    (hd : ctx.deadline = some (instant : Int)) (hreply : instant < replyAt)
    (hc : ∀ c, ctx.cancelAt = some c → instant < c) :
    ctx.FindsFirst now replyAt (.expired instant) where
  start := hnow
  nothing _ _ hi := poll_eq_none_of_lt (Nat.le_of_lt hreply)
    (fun c h => Nat.le_of_lt (hc c h)) (fun d h => by simp_all) hi
  found := poll_of_expired hc hreply hd (Int.le_refl _)

/-- The reply is found first if it comes before the cancellation, and not after the deadline. -/
theorem findsFirst_replied (hnow : now ≤ replyAt)
    (hc : ∀ c, ctx.cancelAt = some c → replyAt < c)
    (hd : ∀ d, ctx.deadline = some d → (replyAt : Int) ≤ d) :
    ctx.FindsFirst now replyAt (.replied replyAt) where
  start := hnow
  nothing _ _ hi := poll_eq_none_of_lt (Nat.le_refl _) (fun c h => Nat.le_of_lt (hc c h)) hd hi
  found := poll_of_replied hc (Nat.le_refl _)

/-- If nothing cancels it, an exchange ends at the deadline if that comes before the reply, and
with the reply otherwise. -/
theorem finishByDeadline_cases (ctx : Context) (replyAt : Nat) :
    (∃ d, ctx.deadline = some d ∧ d < (replyAt : Int) ∧
      ctx.finishByDeadline replyAt = .expired d.toNat) ∨
    (∀ d, ctx.deadline = some d → (replyAt : Int) ≤ d) ∧
      ctx.finishByDeadline replyAt = .replied replyAt := by
  unfold finishByDeadline
  cases ctx.deadline with
  | none => simp
  | some d =>
    by_cases hlt : d < (replyAt : Int)
    · simp [hlt]
    · simp [hlt, Int.not_lt.mp hlt]

/-- **An exchange ends with what it finds first.** -/
theorem findsFirst_finish (hok : ctx.check now = .ok ()) (hreply : now ≤ replyAt) :
    ctx.FindsFirst now replyAt (ctx.finish now replyAt) := by
  obtain ⟨hd, hc⟩ := check_eq_ok_iff.mp hok
  have hbydeadline := instant_finishByDeadline_le hd replyAt
  rcases finish_cases ctx now replyAt with ⟨c, hcancel, hle, heq⟩ | ⟨heq, hlt⟩
  · -- The cancellation is not later than what the exchange would end with otherwise.
    have hnow : now < c := hc c hcancel
    have hbyreply : (ctx.finishByDeadline replyAt).instant ≤ replyAt := by
      rcases finishByDeadline_cases ctx replyAt with ⟨d, _, hd, hby⟩ | ⟨_, hby⟩ <;>
        simp only [hby, Finish.instant] <;> omega
    rw [heq, Nat.max_eq_right (Nat.le_of_lt hnow)]
    refine findsFirst_cancelled (Nat.le_of_lt hnow) hcancel (Nat.le_trans hle hbyreply) ?_
    intro d h
    have := hbydeadline d h
    omega
  · rw [heq]
    rcases finishByDeadline_cases ctx replyAt with ⟨d, hdeadline, hbefore, hby⟩ | ⟨hd', hby⟩
    · have hnow := hd d hdeadline
      obtain ⟨instant, rfl⟩ := Int.eq_ofNat_of_zero_le (show 0 ≤ d by omega)
      rw [hby] at hlt ⊢
      exact findsFirst_expired (by omega) hdeadline (by omega) hlt
    · rw [hby] at hlt ⊢
      exact findsFirst_replied hreply hlt hd'

end Context

/-! ## §2. The calls of the client -/

/-- The client, noting what it is asked to send. -/
def Client.journaled (client : Client σ) : Client (Journaled σ ClientCall) where
  request asked session :=
    let answered := client.request asked session.plain
    (answered.1, ⟨answered.2, session.peer.entries ++ [asked]⟩)

/-- What the client is asked to send when the transport over it is handed a request. -/
def Client.calls (client : Client σ) (r : Request) (s : Session σ) : List ClientCall :=
  ((Transport.http client.journaled).send r (s.withPeer ⟨s.peer, []⟩)).session.peer.entries

namespace Transport

variable (client : Client σ) {r : Request} {s : Session σ}

theorem send_http_of_check_eq_error {e : Error} (h : s.context.check s.now = .error e) :
    (http client).send r s = { outcome := .error e, session := s } := by
  simp only [http, h]

theorem send_http_of_check_eq_ok (h : s.context.check s.now = .ok ()) :
    let asked := ClientCall.ofRequest r
    let answered := client.request asked s
    let finish := s.context.finish s.now (s.now + answered.1.delay)
    (http client).send r s = {
      outcome := finish.outcome answered.1
      session := { s with now := finish.instant, peer := answered.2 }
      events := [⟨s.now, .clientCalled asked⟩] } := by
  simp only [http, h]
  rfl

end Transport

/-- A client that is not called notes nothing, and one that is called notes the call. -/
theorem Client.calls_eq (client : Client σ) (r : Request) (s : Session σ) :
    client.calls r s = match s.context.check s.now with
      | .error _ => []
      | .ok () => [.ofRequest r] := by
  have hcontext : (s.withPeer (⟨s.peer, []⟩ : Journaled σ ClientCall)).context.check s.now =
      s.context.check s.now := rfl
  unfold calls
  cases hcheck : s.context.check s.now with
  | error e =>
    rw [Transport.send_http_of_check_eq_error _ (hcontext.trans hcheck)]
    rfl
  | ok _ =>
    rw [Transport.send_http_of_check_eq_ok _ (hcontext.trans hcheck)]
    rfl

/-- **Noting what the client is asked changes nothing else.** -/
theorem Transport.send_http_journaled (client : Client σ) (r : Request) (s : Session σ) :
    let sent := (http client).send r s
    (http client.journaled).send r (s.withPeer ⟨s.peer, []⟩) = {
      outcome := sent.outcome
      session := sent.session.withPeer ⟨sent.session.peer, client.calls r s⟩
      events := sent.events } := by
  intro sent
  have hcontext : (s.withPeer (⟨s.peer, []⟩ : Journaled σ ClientCall)).context.check s.now =
      s.context.check s.now := rfl
  rw [Client.calls_eq]
  cases hcheck : s.context.check s.now with
  | error e =>
    rw [send_http_of_check_eq_error _ (hcontext.trans hcheck),
      show sent = _ from send_http_of_check_eq_error client hcheck]
  | ok _ =>
    rw [send_http_of_check_eq_ok _ (hcontext.trans hcheck),
      show sent = _ from send_http_of_check_eq_ok client hcheck]
    rfl

/-- What a client is asked to send: the request, without a body exactly if the content is empty
and the method is one of three. -/
theorem ClientCall.ofRequest_eq (r : Request) : ofRequest r = {
    method := r.method
    url := r.url
    headers := r.headers
    body := if r.body = [] ∧ (r.method = .get ∨ r.method = .head ∨ r.method = .delete) then none
      else some r.body } := by
  have hbody : (r.method.omitsEmptyBody && r.body.isEmpty) = true ↔
      r.body = [] ∧ (r.method = .get ∨ r.method = .head ∨ r.method = .delete) := by
    cases r.method <;> simp [Http.Method.omitsEmptyBody]
  simp only [ofRequest, hbody]

/-! ## §3. The race -/

/-- **An exchange resolves its race.** A transport over a client is handed a request. If the call
is cancelled by then, or else if its deadline has passed, the client is asked nothing, and the
exchange ends at once with that failure. Otherwise the client is asked once, to send the request
with its body, or without one exactly if the content is empty and the method is one of three. If
the cancellation comes before the reply and the deadline, the exchange ends then. If it comes
after one of them, the exchange ends at the deadline if that comes before the reply, and otherwise
with the reply: the response of the client, or its failure as one of the transport. -/
theorem http_exchange_resolves_race (client : Client σ) (r : Request) (s : Session σ) :
    let sent := (Transport.http client).send r s
    let asked := ClientCall.ofRequest r
    let reply := (client.request asked s).1
    let replyAt := s.now + reply.delay
    let ended (instant : Nat) (outcome : Outcome) : Sent σ := {
      outcome
      session := { s with now := instant, peer := (client.request asked s).2 }
      events := [⟨s.now, .clientCalled asked⟩] }
    (Transport.http client.journaled).send r (s.withPeer ⟨s.peer, []⟩) = {
        outcome := sent.outcome
        session := sent.session.withPeer ⟨sent.session.peer, client.calls r s⟩
        events := sent.events } ∧
      (∀ c, s.context.cancelAt = some c → c ≤ s.now →
        client.calls r s = [] ∧ sent = { outcome := .error .cancelled, session := s }) ∧
      ((∀ c, s.context.cancelAt = some c → s.now < c) →
        (∀ d, s.context.deadline = some d → d ≤ (s.now : Int) →
          client.calls r s = [] ∧ sent = { outcome := .error .timeout, session := s }) ∧
        ((∀ d, s.context.deadline = some d → (s.now : Int) < d) →
          client.calls r s = [asked] ∧
          asked = {
            method := r.method
            url := r.url
            headers := r.headers
            body :=
              if r.body = [] ∧ (r.method = .get ∨ r.method = .head ∨ r.method = .delete) then none
              else some r.body } ∧
          (∀ c, s.context.cancelAt = some c → c < replyAt →
            (∀ d, s.context.deadline = some d → (c : Int) < d) →
              sent = ended c (.error .cancelled)) ∧
          ((∀ c, s.context.cancelAt = some c →
              replyAt < c ∨ ∃ d, s.context.deadline = some d ∧ d < (c : Int)) →
            (∀ d, s.context.deadline = some d → d < (replyAt : Int) →
              (d.toNat : Int) = d ∧ sent = ended d.toNat (.error .timeout)) ∧
            ((∀ d, s.context.deadline = some d → (replyAt : Int) ≤ d) →
              sent = ended replyAt (reply.result.mapError .transport))))) := by
  intro sent asked reply replyAt ended
  refine ⟨Transport.send_http_journaled client r s, fun c hc hle => ?_, fun hc => ⟨?_, ?_⟩⟩
  · have hcheck : s.context.check s.now = .error .cancelled := by
      simp [Context.check, Context.isCancelled_of_le hc hle]
    exact ⟨by rw [Client.calls_eq, hcheck], Transport.send_http_of_check_eq_error client hcheck⟩
  · intro d hd hle
    have hexpired : s.context.isExpired s.now = true := Context.isExpired_iff.mpr ⟨d, hd, hle⟩
    have hcheck : s.context.check s.now = .error .timeout := by
      simp [Context.check, Context.isCancelled_eq_false_iff.mpr hc, hexpired]
    exact ⟨by rw [Client.calls_eq, hcheck], Transport.send_http_of_check_eq_error client hcheck⟩
  · intro hd
    have hcheck : s.context.check s.now = .ok () := Context.check_eq_ok_iff.mpr ⟨hd, hc⟩
    -- The exchange ends with what is found first, so it is enough to find something first.
    have hended {finish : Context.Finish} (h : s.context.FindsFirst s.now replyAt finish) :
        sent = ended finish.instant (finish.outcome reply) := by
      have hfinish : s.context.finish s.now replyAt = finish :=
        (Context.findsFirst_finish hcheck (Nat.le_add_right _ _)).unique h
      rw [← hfinish]
      exact Transport.send_http_of_check_eq_ok client hcheck
    refine ⟨by rw [Client.calls_eq, hcheck], ClientCall.ofRequest_eq r, ?_,
      fun hlate => ⟨?_, ?_⟩⟩
    · intro c hcancel hreply hdeadline
      exact hended (Context.findsFirst_cancelled (Nat.le_of_lt (hc c hcancel)) hcancel
        (Nat.le_of_lt hreply) fun d h => Int.le_of_lt (hdeadline d h))
    · intro d hdeadline hreply
      have hnow := hd d hdeadline
      obtain ⟨instant, rfl⟩ := Int.eq_ofNat_of_zero_le (show 0 ≤ d by omega)
      refine ⟨rfl, hended (Context.findsFirst_expired (by omega) hdeadline (by omega) ?_)⟩
      intro c hcancel
      rcases hlate c hcancel with hafter | ⟨d, h, hafter⟩
      · omega
      · obtain rfl : (instant : Int) = d := by simpa [hdeadline] using h
        omega
    · intro hdeadline
      refine hended (Context.findsFirst_replied (Nat.le_add_right _ _)
        (fun c hcancel => ?_) hdeadline)
      rcases hlate c hcancel with hafter | ⟨d, h, hafter⟩
      · exact hafter
      · have := hdeadline d h
        omega

/-- A reply that is due exactly at the deadline wins, and one that is due later does not; a
cancellation before both wins; and a call that is cancelled and past its deadline is reported as
cancelled, and nothing is asked. -/
theorem http_exchange_resolves_race_of_each :
    let client := Client.scripted Script.nextClientReply
    let r : Request := { method := .get, url := "/a", urlCapacity := 64, headerCapacity := 4 }
    let s (delay : Nat) (context : Context) : Session Script :=
      { context, peer := { clientReplies := [{ delay, result := .ok { status := 204 } }] } }
    let sent (session : Session Script) := (Transport.http client).send r session
    let asked : ClientCall := { method := .get, url := "/a", headers := [], body := none }
    ((sent (s 5 ⟨some 5, some 6⟩)).outcome = .ok { status := 204 } ∧
        (sent (s 5 ⟨some 5, some 6⟩)).session.now = 5) ∧
      ((sent (s 6 ⟨some 5, some 9⟩)).outcome = .error .timeout ∧
        (sent (s 6 ⟨some 5, some 9⟩)).session.now = 5) ∧
      ((sent (s 6 ⟨some 5, some 4⟩)).outcome = .error .cancelled ∧
        (sent (s 6 ⟨some 5, some 4⟩)).session.now = 4 ∧
        client.calls r (s 6 ⟨some 5, some 4⟩) = [asked]) ∧
      (sent (s 6 ⟨some 0, some 0⟩)).outcome = .error .cancelled ∧
        client.calls r (s 6 ⟨some 0, some 0⟩) = [] := by
  intro client r s sent asked
  have hrace := http_exchange_resolves_race client r
  refine ⟨?_, ?_, ?_, ?_⟩
  · obtain ⟨_, _, hasked⟩ := hrace (s 5 ⟨some 5, some 6⟩)
    obtain ⟨_, _, _, hlate⟩ := (hasked (by rintro c ⟨⟩; decide)).2 (by rintro d ⟨⟩; decide)
    have hsent := (hlate (by rintro c ⟨⟩; exact .inl (by decide))).2 (by rintro d ⟨⟩; decide)
    exact ⟨congrArg Sent.outcome hsent, congrArg (fun sent => sent.session.now) hsent⟩
  · obtain ⟨_, _, hasked⟩ := hrace (s 6 ⟨some 5, some 9⟩)
    obtain ⟨_, _, _, hlate⟩ := (hasked (by rintro c ⟨⟩; decide)).2 (by rintro d ⟨⟩; decide)
    have hsent :=
      ((hlate (by rintro c ⟨⟩; exact .inl (by decide))).1 5 rfl (by decide)).2
    exact ⟨congrArg Sent.outcome hsent, congrArg (fun sent => sent.session.now) hsent⟩
  · obtain ⟨_, _, hasked⟩ := hrace (s 6 ⟨some 5, some 4⟩)
    obtain ⟨hcalls, _, hfirst, _⟩ :=
      (hasked (by rintro c ⟨⟩; decide)).2 (by rintro d ⟨⟩; decide)
    have hsent := hfirst 4 rfl (by decide) (by rintro d ⟨⟩; decide)
    exact ⟨congrArg Sent.outcome hsent, congrArg (fun sent => sent.session.now) hsent, hcalls⟩
  · obtain ⟨_, hcancelled, _⟩ := hrace (s 6 ⟨some 0, some 0⟩)
    obtain ⟨hcalls, hsent⟩ := hcancelled 0 rfl (by decide)
    exact ⟨congrArg Sent.outcome hsent, hcalls⟩

end HttpPipeline
