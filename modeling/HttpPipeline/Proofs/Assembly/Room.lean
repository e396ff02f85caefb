import HttpPipeline.Proofs.Assembly.Handovers
import HttpPipeline.Proofs.Assembly.Timing
import HttpPipeline.Proofs.Text.Trim

/-! # Room for a run

  A run puts the API version and the user agent on the request once, and a token in every attempt.
  Whether there is room for them depends on the request it begins with, and on nothing that
  happens later: what an attempt added is taken away before the next one. So a run without the
  room ends before anything is sent, and in a run with it every attempt reaches the transport.
-/

namespace HttpPipeline

variable {σ : Type}

/-! ## §1. Failures that a transport does not have -/

/-- Whether something did not fit the space set aside for it. -/
def LacksRoom {α : Type} (result : Except Error α) : Prop :=
  ∃ what needed available, result = .error (.insufficientCapacity what needed available)

/-- Whether options or arguments cannot be used. -/
def IsMisconfigured {α : Type} (result : Except Error α) : Prop :=
  ∃ fault, result = .error (.invalidConfig fault)

/-- A transport that never fails in either way by itself. -/
structure Transport.Accommodates (t : Transport σ) : Prop where
  /-- Whatever it is handed fits. -/
  room : ∀ r s, ¬ LacksRoom (t.send r s).outcome
  /-- Whatever it is handed can be used. -/
  config : ∀ r s, ¬ IsMisconfigured (t.send r s).outcome

/-- The transport over a client fails because of the bounds of the call or of its client. -/
theorem Transport.accommodates_http (client : Client σ) : (http client).Accommodates := by
  have hfails (r : Request) (s : Session σ) {e : Error}
      (h : ((http client).send r s).outcome = .error e) :
      e = .cancelled ∨ e = .timeout ∨ ∃ cause, e = .transport cause :=
    @http_exchange_eq_error σ client { s with request := r } e h
  constructor
  · rintro r s ⟨what, needed, available, h⟩
    rcases hfails r s h with h | h | ⟨cause, h⟩ <;> cases h
  · rintro r s ⟨fault, h⟩
    rcases hfails r s h with h | h | ⟨cause, h⟩ <;> cases h

/-! ## §2. One addition to a request -/

namespace Request

/-- A header with a name is added, or there is no room for one. -/
theorem appendHeader_cases {r : Request} {name : String} (hname : Text.trim name ≠ "")
    (value : String) :
    (r.headers.length < r.headerCapacity ∧
      r.appendHeader name value = .ok (r.extend [(Text.trim name, value)])) ∨
    (r.headerCapacity ≤ r.headers.length ∧ r.appendHeader name value =
      .error (.insufficientCapacity "header" (r.headers.length + 1) r.headerCapacity)) := by
  by_cases hroom : r.headerCapacity ≤ r.headers.length
  · exact .inr ⟨hroom, by simp [appendHeader, hname, hroom]⟩
  · have hlt : r.headers.length < r.headerCapacity := Nat.lt_of_not_le hroom
    exact .inl ⟨hlt, appendHeader_eq_ok_iff.mpr ⟨hname, hlt, rfl⟩⟩

/-- A query parameter with a name is added, or there is no room for it. -/
theorem setQueryParameter_cases {r : Request} {name : String} (hname : name ≠ "")
    (value : String) :
    (sizeWithParameter r.url name value ≤ r.urlCapacity ∧ r.setQueryParameter name value =
      .ok { r with url := r.url ++ separator r.url ++ name ++ "=" ++ value }) ∨
    (r.urlCapacity < sizeWithParameter r.url name value ∧ r.setQueryParameter name value =
      .error (.insufficientCapacity "url" (sizeWithParameter r.url name value)
        r.urlCapacity)) := by
  by_cases hroom : r.urlCapacity < sizeWithParameter r.url name value
  · exact .inr ⟨hroom, by simp [setQueryParameter, hname, hroom]⟩
  · have hle := Nat.le_of_not_lt hroom
    exact .inl ⟨hle, setQueryParameter_eq_ok_iff.mpr ⟨hname, hle, rfl⟩⟩

end Request

/-! ## §3. The credential of a token -/

/-- The header that carries a token. -/
def Token.header (token : Token) : String × String :=
  ("Authorization", token.headerValue)

/-- The credential of a token, or the one that adds nothing if there is none. -/
def Credential.ofToken : Option Token → Credential σ
  | none => anonymous
  | some token => bearer token

namespace Credential

theorem appendsOnly_ofToken (token : Option Token) :
    (ofToken token : Credential σ).AppendsOnly := by
  cases token with
  | none => exact appendsOnly_anonymous
  | some token => exact appendsOnly_bearer token

/-- The credential adds the header of its token, if it has one, or there is no room for it. -/
theorem authorize_ofToken_cases (token : Option Token) (r : Request) (s : Session σ) :
    ((token.isSome → r.headers.length < r.headerCapacity) ∧
      (ofToken token).authorize r s = {
        outcome := .ok ()
        request := r.extend (token.toList.map Token.header)
        session := s }) ∨
    (token.isSome ∧ r.headerCapacity ≤ r.headers.length ∧
      (ofToken token).authorize r s = {
        outcome :=
          .error (.insufficientCapacity "header" (r.headers.length + 1) r.headerCapacity)
        request := r
        session := s }) := by
  cases token with
  | none => exact .inl ⟨nofun, by simp [ofToken, anonymous, Request.extend]⟩
  | some token =>
    have hname : Text.trim "Authorization" = "Authorization" := by decide
    rcases Request.appendHeader_cases (r := r) (by decide : Text.trim "Authorization" ≠ "")
      token.headerValue with ⟨hroom, happend⟩ | ⟨hfull, happend⟩
    · rw [hname] at happend
      exact .inl ⟨fun _ => hroom, by simp [ofToken, bearer, happend, Token.header]⟩
    · exact .inr ⟨rfl, hfull, by simp [ofToken, bearer, happend]⟩

/-- With room for its token, the credential hands the request on with the token's header. -/
theorem handed_ofToken {token : Option Token} {call : Call σ}
    (hroom : token.isSome → call.request.headers.length < call.request.headerCapacity) :
    ∃ handed, (ofToken token).handed call = .ok handed ∧
      handed.request = call.request.extend (token.toList.map Token.header) := by
  rcases authorize_ofToken_cases token call.request call.toSession with
    ⟨_, hok⟩ | ⟨hsome, hfull, _⟩
  · refine ⟨_, by unfold handed; rw [hok], ?_⟩
    show (applied _ call).request = _
    unfold applied
    rw [hok]
  · exact absurd (hroom hsome) (Nat.not_lt.mpr hfull)

/-- Without room for its token, the credential fails and leaves the call as it is. -/
theorem handed_ofToken_of_full {token : Option Token} {call : Call σ} (hsome : token.isSome)
    (hfull : call.request.headerCapacity ≤ call.request.headers.length) :
    ∃ needed available, (ofToken token).handed call =
        .error (.insufficientCapacity "header" needed available) ∧
      (ofToken token).applied call = call := by
  rcases authorize_ofToken_cases token call.request call.toSession with
    ⟨hroom, _⟩ | ⟨_, _, herror⟩
  · exact absurd (hroom hsome) (Nat.not_lt.mpr hfull)
  · refine ⟨_, _, by unfold handed; rw [herror], ?_⟩
    unfold applied
    rw [herror]
    simp

end Credential

/-! ## §4. Room -/

namespace PipelineOptions

/-- How many headers a request gets in an attempt: one for the API version if that goes into a
header, one for the user agent, and one for the token if there is one. -/
def headerCount (o : PipelineOptions) (token : Option Token) : Nat :=
  (if o.apiVersion.any fun v => v.location = .header then 1 else 0) + 1 +
    if token.isSome then 1 else 0

/-- Whether a request has room for all that a run puts on it. -/
structure HasRoom (o : PipelineOptions) (token : Option Token) (r : Request) : Prop where
  /-- There is room for the headers. -/
  headers : r.headers.length + o.headerCount token ≤ r.headerCapacity
  /-- There is room for the API version in the query, if it goes there. -/
  url : ∀ name version, o.apiVersion = some ⟨.queryParameter, name, version⟩ →
    r.url.utf8ByteSize + name.utf8ByteSize + version.utf8ByteSize + 2 ≤ r.urlCapacity

/-- The name of the API version has a character that is not blank. -/
def NamesVersion (o : PipelineOptions) : Prop :=
  ∀ v, o.apiVersion = some v → Text.isBlankText v.name = false

theorem namesVersion_of_admitted {o : PipelineOptions} {component version agent : String}
    (h : o.admitted component version = .ok agent) : o.NamesVersion := by
  intro v hv
  unfold admitted at h
  simp only [hv, Option.map_some, ApiVersionOptions.validate] at h
  cases hblank : Text.isBlankText v.name with
  | true => simp [hblank] at h
  | false => rfl

theorem headerCount_eq (o : PipelineOptions) (token : Option Token) :
    o.headerCount token = o.stampHeaders.length + 1 + token.toList.length := by
  have hversion : (if o.apiVersion.any fun v => v.location = .header then 1 else 0) =
      o.stampHeaders.length := by
    unfold stampHeaders
    match o.apiVersion with
    | none => rfl
    | some ⟨.header, name, version⟩ => rfl
    | some ⟨.queryParameter, name, version⟩ => rfl
  have htoken : (if token.isSome then 1 else 0) = token.toList.length := by
    cases token <;> rfl
  unfold headerCount
  rw [hversion, htoken]

/-- The API version is put on a request, and fits into its query if it goes there, or there is no
room for it. -/
theorem stamp_cases {o : PipelineOptions} (hname : o.NamesVersion) (r : Request) :
    ((∃ versioned, o.stamp r = .ok versioned) ∧
      ∀ name version, o.apiVersion = some ⟨.queryParameter, name, version⟩ →
        r.url.utf8ByteSize + name.utf8ByteSize + version.utf8ByteSize + 2 ≤ r.urlCapacity) ∨
    (LacksRoom (o.stamp r) ∧ ¬ o.HasRoom none r) := by
  unfold stamp
  match hv : o.apiVersion with
  | none => exact .inl ⟨⟨r, rfl⟩, nofun⟩
  | some ⟨.header, name, version⟩ =>
    have htrim : Text.trim name ≠ "" := by
      simpa [Text.trim_eq_empty_iff] using hname _ hv
    rcases Request.appendHeader_cases (r := r) htrim version with ⟨_, happend⟩ | ⟨hfull, happend⟩
    · exact .inl ⟨⟨_, happend⟩, nofun⟩
    · refine .inr ⟨⟨_, _, _, happend⟩, fun hroom => ?_⟩
      have hheaders := hroom.headers
      have hcount : o.headerCount none = 2 := by simp [headerCount, hv]
      omega
  | some ⟨.queryParameter, name, version⟩ =>
    have hne : name ≠ "" := by
      rintro rfl
      simpa [Text.isBlankText] using hname _ hv
    have hsize := Request.sizeWithParameter_eq r.url name version
    rcases Request.setQueryParameter_cases (r := r) hne version with ⟨hfits, hset⟩ | ⟨hfull, hset⟩
    · refine .inl ⟨⟨_, hset⟩, fun name' version' h => ?_⟩
      obtain ⟨rfl, rfl⟩ : name = name' ∧ version = version' := by simpa using h
      omega
    · refine .inr ⟨⟨_, _, _, hset⟩, fun hroom => ?_⟩
      have := hroom.url name version hv
      omega

/-- A request with room for what is put on it once is prepared; one without is refused for that
reason. -/
theorem prepare_cases {o : PipelineOptions} (hname : o.NamesVersion) (agent : String)
    (r : Request) :
    (o.HasRoom none r ∧ o.prepare agent r = .ok (o.stamped agent r)) ∨
    (¬ o.HasRoom none r ∧ LacksRoom (o.prepare agent r)) := by
  rcases stamp_cases hname r with
    ⟨⟨versioned, hstamp⟩, hurl⟩ | ⟨⟨what, needed, available, hlacks⟩, hno⟩
  · -- Once the API version is on the request, it is a question of one header more.
    have hversioned := stamp_eq_ok hstamp
    have hcount := o.headerCount_eq none
    have hlength : versioned.headers.length = r.headers.length + o.stampHeaders.length := by
      rw [hversioned, List.length_append]
    have hcapacity : versioned.headerCapacity = r.headerCapacity := by
      rw [hversioned]
    have hprepare : o.prepare agent r = versioned.appendHeader "User-Agent" agent := by
      unfold prepare
      rw [hstamp]
    simp only [Option.toList_none, List.length_nil, Nat.add_zero] at hcount
    rcases Request.appendHeader_cases (r := versioned) (by decide : Text.trim "User-Agent" ≠ "")
      agent with ⟨hroom, happend⟩ | ⟨hfull, happend⟩
    · refine .inl ⟨⟨by omega, hurl⟩, ?_⟩
      rw [happend] at hprepare
      rw [← prepare_eq_ok hprepare, hprepare]
    · refine .inr ⟨fun hroom => ?_, _, _, _, hprepare.trans happend⟩
      have := hroom.headers
      omega
  · refine .inr ⟨hno, what, needed, available, ?_⟩
    unfold prepare
    rw [hlacks]

/-- Room for a token, too, is room for one header more once the request is prepared. -/
theorem hasRoom_iff {o : PipelineOptions} {token : Option Token} {r : Request}
    (agent : String) :
    o.HasRoom token r ↔ o.HasRoom none r ∧ (token.isSome →
      (o.stamped agent r).headers.length < (o.stamped agent r).headerCapacity) := by
  have hstamped : (o.stamped agent r).headers.length =
      r.headers.length + o.stampHeaders.length + 1 := by
    simp only [stamped, List.length_append, List.length_singleton]
  have hcapacity : (o.stamped agent r).headerCapacity = r.headerCapacity := rfl
  -- Both sides count the same headers, those that are on the prepared request and the token's.
  have hcount := o.headerCount_eq token
  have hbare := o.headerCount_eq none
  cases token with
  | none => simp
  | some token =>
    simp only [Option.toList_none, Option.toList_some, List.length_nil,
      List.length_singleton] at hcount hbare
    constructor
    · intro hroom
      have := hroom.headers
      exact ⟨⟨by omega, hroom.url⟩, fun _ => by omega⟩
    · rintro ⟨hroom, htoken⟩
      have := htoken rfl
      exact ⟨by omega, hroom.url⟩

end PipelineOptions

/-! ## §5. Runs -/

section Runs

variable {o : PipelineOptions} {agent : String} {token : Option Token} {t : Transport σ}
  {call : Call σ}

/-- With room, a run ends as its last attempt does. -/
theorem outcome_of_hasRoom (t : Transport σ) (hname : o.NamesVersion)
    (hroom : o.HasRoom token call.request) :
    (o.attempts agent (.ofToken token) t call).getLast?.map Attempt.outcome =
      some ((o.pipeline agent (.ofToken token) t).run call).1 := by
  have hbare : o.HasRoom none call.request := ((PipelineOptions.hasRoom_iff agent).mp hroom).1
  rcases PipelineOptions.prepare_cases hname agent call.request with ⟨_, hprepare⟩ | ⟨hno, _⟩
  · exact (PipelineOptions.attempts_follow hprepare _ t).outcome_last
  · exact absurd hbare hno

/-- With room, every attempt hands the transport the same request, and ends as the exchange
does. -/
theorem attempt_of_hasRoom {x : Attempt σ} (hx : x ∈ o.attempts agent (.ofToken token) t call)
    (hroom : o.HasRoom token call.request) :
    ∃ handed, (Credential.ofToken token).handed x.before = .ok handed ∧
      handed.request = ((o.stamped agent call.request).markHeaders).extend
        (token.toList.map Token.header) ∧
      x.outcome = (t.exchange handed).1 := by
  have hbefore : x.before.request = (o.stamped agent call.request).markHeaders :=
    request_of_mem_attempts (Credential.appendsOnly_ofToken token) hx
  have htoken : token.isSome →
      x.before.request.headers.length < x.before.request.headerCapacity := by
    rw [hbefore]
    exact ((PipelineOptions.hasRoom_iff agent).mp hroom).2
  obtain ⟨handed, hhanded, hrequest⟩ := Credential.handed_ofToken htoken
  refine ⟨handed, hhanded, hbefore ▸ hrequest, ?_⟩
  rw [PipelineOptions.eq_of_mem_attempts hx]
  exact outcome_attempting hhanded t

/-- An attempt without room for the token ends in the credential and changes nothing. -/
theorem run_attempting_of_full (t : Transport σ) (hsome : token.isSome)
    (hfull : call.request.headerCapacity ≤ call.request.headers.length) :
    ∃ needed available, (Next.attempting (.ofToken token) t).run call =
      (.error (.insufficientCapacity "header" needed available), call) := by
  obtain ⟨needed, available, hhanded, happlied⟩ := Credential.handed_ofToken_of_full hsome hfull
  exact ⟨needed, available, by rw [run_attempting, hhanded, happlied]⟩

/-- Without room, the run leaves everything as it is but the request, and in no attempt the
transport is reached. -/
theorem run_of_not_hasRoom (agent : String) (t : Transport σ) (call : Call σ)
    (hname : o.NamesVersion) (hno : ¬ o.HasRoom token call.request) :
    LacksRoom ((o.pipeline agent (.ofToken token) t).run call).1 ∧
      ((o.pipeline agent (.ofToken token) t).run call).2.toAmbient = call.toAmbient ∧
      ∀ x ∈ o.attempts agent (.ofToken token) t call, ∃ request,
        x.handovers (.ofToken token) = [.authorized x.before.request request] := by
  rcases PipelineOptions.prepare_cases hname agent call.request with
    ⟨hbare, hprepare⟩ | ⟨_, what, needed, available, hlacks⟩
  · -- The token is what there is no room for. Every attempt begins with the same request, and
    -- the retry policy does not make a second one.
    let base := (o.stamped agent call.request).markHeaders
    obtain ⟨hsome, hfull⟩ : token.isSome ∧ base.headerCapacity ≤ base.headers.length := by
      by_contra hcontra
      refine hno ((PipelineOptions.hasRoom_iff agent).mpr ⟨hbare, fun hsome => ?_⟩)
      exact Nat.lt_of_not_le fun hfull => hcontra ⟨hsome, hfull⟩
    let start : Call σ := { call with request := base }
    obtain ⟨needed, available, hattempt⟩ : ∃ needed available,
        (Next.attempting (.ofToken token) t).run start =
          (.error (.insufficientCapacity "header" needed available), start) :=
      run_attempting_of_full t hsome hfull
    have hrun : (o.pipeline agent (.ofToken token) t).run call =
        (.error (.insufficientCapacity "header" needed available), start) := by
      rw [PipelineOptions.run_of_prepare_eq_ok hprepare, ← hattempt]
      exact RetryOptions.attemptFrom_of_shouldRetry_eq_false (by rw [hattempt]; rfl) _ _
    rw [hrun]
    refine ⟨⟨_, _, _, rfl⟩, rfl, fun x hx => ?_⟩
    have hbefore : x.before.request = base :=
      request_of_mem_attempts (Credential.appendsOnly_ofToken token) hx
    rw [← hbefore] at hfull
    obtain ⟨_, _, herror, _⟩ := Credential.handed_ofToken_of_full hsome hfull
    exact ⟨_, handovers_of_error herror⟩
  · obtain ⟨left, hrun⟩ :=
      PipelineOptions.run_of_prepare_eq_error (c := .ofToken token) (t := t) hlacks
    refine ⟨⟨what, needed, available, by rw [hrun]⟩, by rw [hrun], fun x hx => ?_⟩
    simp [PipelineOptions.attempts, hlacks] at hx

end Runs

/-- **Whether there is room is decided before anything is sent.** In a run of an assembled
pipeline with a token or none, over a transport that never fails for want of room or for its
configuration, nothing else does so either, except for a request without room for what is put on
it. Such a run leaves everything but the request as it was, the clock and the trace included, and
the transport is handed nothing. In any other run there is at least one attempt, and in each one,
whatever its number, the credential is asked and the transport is reached, and the attempt does
not fail for want of room. -/
theorem room_decided_before_sending {o : PipelineOptions} {component version : String}
    {token : Option Token} {t : Transport σ} {p : Pipeline σ}
    (hp : o.assemble component version (.ofToken token) t = .ok p) (ht : t.Accommodates)
    (r : Request) (a : Ambient σ) :
    ∃ agent p' handovers, o.telemetry.userAgent component version = .ok agent ∧
      o.assemble component version (Credential.ofToken token).journaled t.journaled = .ok p' ∧
      p'.send r (a.journaled []) =
        ((p.send r a).1, (p.send r a).2.1, (p.send r a).2.2.journaled handovers) ∧
      let attempts := o.attempts agent (.ofToken token) t { a with request := r }
      handovers = attempts.flatMap (fun x => x.handovers (.ofToken token)) ∧
      ¬ IsMisconfigured (p.send r a).1 ∧
      (LacksRoom (p.send r a).1 ↔ ¬ o.HasRoom token r) ∧
      (¬ o.HasRoom token r →
        (p.send r a).2.2 = a ∧ ∀ request, .sent request ∉ handovers) ∧
      (o.HasRoom token r → attempts ≠ [] ∧
        ∀ x ∈ attempts, ¬ LacksRoom x.outcome ∧ ∃ request, x.handovers (.ofToken token) =
          [.authorized x.before.request request, .sent request]) := by
  obtain ⟨agent, hagent, rfl⟩ := PipelineOptions.assemble_eq_ok hp
  have hname := PipelineOptions.namesVersion_of_admitted hagent
  let start : Call σ := { a with request := r }
  refine ⟨agent, o.pipeline agent (Credential.ofToken token).journaled t.journaled, _,
    PipelineOptions.admitted_eq_ok hagent, PipelineOptions.assemble_of_admitted hagent _ _,
    send_journaled o agent (.ofToken token) t r a, ?_⟩
  intro attempts
  refine ⟨rfl, ?_⟩
  by_cases hroom : o.HasRoom token r
  · -- The run ends as its last attempt, and every attempt ends as its exchange.
    have hattempt (x : Attempt σ) (hx : x ∈ attempts) :
        ¬ IsMisconfigured x.outcome ∧ ¬ LacksRoom x.outcome ∧
          ∃ request, x.handovers (.ofToken token) =
            [.authorized x.before.request request, .sent request] := by
      obtain ⟨handed, hhanded, _, houtcome⟩ := attempt_of_hasRoom hx hroom
      rw [houtcome]
      exact ⟨ht.config _ _, ht.room _ _, handed.request, handovers_of_handed hhanded⟩
    have hlast : attempts.getLast?.map Attempt.outcome =
        some ((o.pipeline agent (.ofToken token) t).run start).1 :=
      outcome_of_hasRoom t hname hroom
    obtain ⟨last, hlast, houtcome⟩ := Option.map_eq_some_iff.mp hlast
    have hmem : last ∈ attempts := List.mem_of_getLast? hlast
    rw [Pipeline.send_eq, ← houtcome]
    obtain ⟨hconfig, hlacks, _⟩ := hattempt last hmem
    exact ⟨hconfig, iff_of_false hlacks (not_not_intro hroom), fun hno => absurd hroom hno,
      fun _ => ⟨List.ne_nil_of_mem hmem, fun x hx => (hattempt x hx).2⟩⟩
  · -- There is no attempt, or a single one that hands nothing to the transport.
    obtain ⟨hlacks, hambient, hattempts⟩ := run_of_not_hasRoom agent t start hname hroom
    refine ⟨?_, iff_of_true hlacks hroom, fun _ => ⟨hambient, ?_⟩, fun h => absurd h hroom⟩
    · rintro ⟨fault, hfault⟩
      obtain ⟨what, needed, available, hlacks⟩ := hlacks
      cases hlacks.symm.trans hfault
    · intro request hmem
      obtain ⟨x, hx, hmem⟩ := List.mem_flatMap.mp hmem
      obtain ⟨authorized, hhandovers⟩ := hattempts x hx
      simp [hhandovers] at hmem

/-- Three headers are put on the request. With room for three it is sent twice, with room for two
it is not sent. -/
theorem room_decided_before_sending_for_three_headers :
    let o : PipelineOptions := { apiVersion := some ⟨.header, "x-ms-version", "2024"⟩ }
    let token : Option Token := some ⟨"secret"⟩
    let t := Transport.http (Client.scripted Script.nextClientReply)
    let r (room : Nat) : Request :=
      { method := .get, url := "/a", urlCapacity := 2, headerCapacity := room }
    let a : Ambient Script := { peer := { clientReplies := [{ result := .ok { status := 503 } }] } }
    ∃ p, o.assemble "blobs" "1.0" (.ofToken token) t = .ok p ∧ t.Accommodates ∧
      o.HasRoom token (r 3) ∧ ¬ LacksRoom (p.send (r 3) a).1 ∧ (p.send (r 3) a).2.2.now = 4000 ∧
      ¬ o.HasRoom token (r 2) ∧ LacksRoom (p.send (r 2) a).1 ∧ (p.send (r 2) a).2.2.now = 0 := by
  intro o token t r a
  have hp : o.assemble "blobs" "1.0" (.ofToken token) t =
      .ok (o.pipeline "nimbus-rs-blobs/1.0" (.ofToken token) t) := by
    rfl
  have ht : t.Accommodates := Transport.accommodates_http _
  have hroom : o.HasRoom token (r 3) := ⟨by decide, nofun⟩
  have hno : ¬ o.HasRoom token (r 2) := fun h => absurd h.headers (by decide)
  obtain ⟨_, _, _, _, _, _, _, _, hiff, _, _⟩ := room_decided_before_sending hp ht (r 3) a
  obtain ⟨_, _, _, _, _, _, _, _, hiff', hfull, _⟩ := room_decided_before_sending hp ht (r 2) a
  refine ⟨_, hp, ht, hroom, fun h => hiff.mp h hroom, by decide, hno, hiff'.mpr hno, ?_⟩
  rw [(hfull hno).1]

end HttpPipeline
