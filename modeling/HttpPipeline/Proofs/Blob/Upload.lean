import HttpPipeline.Blob.Client
import HttpPipeline.Proofs.Assembly.Room

/-! # Uploads

  An upload is one run of the client's pipeline with a request that has three headers and room
  for ten. If the API version goes into a header, at most three more are put on it: there is room
  for them, so every attempt hands the transport the same request, and the upload ends with what
  the last attempt comes to.
-/

namespace HttpPipeline

variable {σ : Type}

/-! ## §1. API versions in headers -/

namespace PipelineOptions

/-- The API version goes into a header, if there is one. -/
def VersionInHeader (o : PipelineOptions) : Prop :=
  ∀ v, o.apiVersion = some v → v.location = .header

theorem stampedUrl_of_versionInHeader {o : PipelineOptions} (h : o.VersionInHeader)
    (url : String) : o.stampedUrl url = url := by
  unfold stampedUrl
  match hv : o.apiVersion with
  | none => rfl
  | some ⟨.header, name, version⟩ => rfl
  | some ⟨.queryParameter, name, version⟩ => cases h _ hv

theorem stampHeaders_of_versionInHeader {o : PipelineOptions} (h : o.VersionInHeader) :
    o.stampHeaders = o.apiVersion.toList.map fun v => (Text.trim v.name, v.version) := by
  unfold stampHeaders
  match hv : o.apiVersion with
  | none => rfl
  | some ⟨.header, name, version⟩ => rfl
  | some ⟨.queryParameter, name, version⟩ => cases h _ hv

/-- A request with room for three headers more has room for all that is put on it. -/
theorem hasRoom_of_versionInHeader {o : PipelineOptions} (h : o.VersionInHeader)
    (token : Option Token) {r : Request} (hr : r.headers.length + 3 ≤ r.headerCapacity) :
    o.HasRoom token r where
  headers := by
    have hcount : o.headerCount token ≤ 3 := by
      unfold headerCount
      split <;> split <;> decide
    omega
  url name version hv := by cases h _ hv

end PipelineOptions

namespace Blob.Client

/-! ## §2. The client and its request -/

/-- A client has an endpoint that can be used, and the pipeline of its options. -/
theorem ofTransport_eq_ok {endpoint : String} {c : Credential σ} {o : PipelineOptions}
    {t : Transport σ} {client : Client σ} (h : ofTransport endpoint c o t = .ok client) :
    endpointFault? endpoint = none ∧
      ∃ agent, o.admitted component clientVersion = .ok agent ∧
        client = ⟨endpoint, o.pipeline agent c t⟩ := by
  unfold ofTransport at h
  split at h
  · cases h
  · next hendpoint =>
    refine ⟨hendpoint, ?_⟩
    split at h
    · cases h
    · next pipeline hpipeline =>
      obtain ⟨agent, hagent, rfl⟩ := PipelineOptions.assemble_eq_ok hpipeline
      exact ⟨agent, hagent, (Except.ok.inj h).symm⟩

/-- An endpoint and options that can be used make a client for any peers. -/
theorem ofTransport_of_admitted {endpoint agent : String} {o : PipelineOptions}
    (hendpoint : endpointFault? endpoint = none)
    (hagent : o.admitted component clientVersion = .ok agent) (c : Credential σ)
    (t : Transport σ) :
    ofTransport endpoint c o t = .ok ⟨endpoint, o.pipeline agent c t⟩ := by
  simp only [ofTransport, hendpoint, PipelineOptions.assemble_of_admitted hagent]

/-- An endpoint that can be used fits into a request. -/
theorem utf8ByteSize_le_of_endpointFault? {endpoint : String}
    (h : endpointFault? endpoint = none) :
    endpoint.utf8ByteSize ≤ Request.defaultUrlCapacity := by
  unfold endpointFault? at h
  split at h
  · cases h
  · split at h
    · cases h
    · next hsize => exact Nat.le_of_not_lt hsize

/-- The headers with which an upload begins. -/
def initialHeaders (content : Bytes) (options : UploadOptions) : List (String × String) :=
  [("x-ms-blob-type", "BlockBlob"), ("Content-Length", toString content.length),
    ("Content-Type", options.contentType)]

/-- The request with which an upload begins. -/
def initialRequest (endpoint : String) (content : Bytes) (options : UploadOptions) : Request where
  method := .put
  url := endpoint
  urlCapacity := Request.defaultUrlCapacity
  headers := initialHeaders content options
  headerCapacity := headerCapacity
  body := content

/-- There is room for the headers with which an upload begins. -/
theorem uploadRequest_eq {endpoint : String}
    (h : endpoint.utf8ByteSize ≤ Request.defaultUrlCapacity) (content : Bytes)
    (options : UploadOptions) :
    uploadRequest endpoint content options = .ok (initialRequest endpoint content options) := by
  have hnames : Text.trim "x-ms-blob-type" = "x-ms-blob-type" ∧
      Text.trim "Content-Length" = "Content-Length" ∧
      Text.trim "Content-Type" = "Content-Type" := by decide
  simp [uploadRequest, Request.withCapacity, Nat.not_lt.mpr h, Request.withBody,
    Request.appendHeader, hnames, headerCapacity, initialRequest, initialHeaders, bind,
    Except.bind]

/-- An upload is a run with that request. -/
theorem upload_eq {endpoint : String}
    (h : endpoint.utf8ByteSize ≤ Request.defaultUrlCapacity) (p : Pipeline σ) (content : Bytes)
    (options : UploadOptions) (a : Ambient σ) :
    (Client.mk endpoint p).upload content options a =
      (resultOf (p.send (initialRequest endpoint content options) a).1,
        (p.send (initialRequest endpoint content options) a).2.2) := by
  unfold upload
  rw [uploadRequest_eq h]

/-- The headers with which the transport is handed an upload: those with which it begins, the API
version if there is one, the user agent, and the token if there is one. -/
def sentHeaders (o : PipelineOptions) (agent : String) (token : Option Token) (content : Bytes)
    (options : UploadOptions) : List (String × String) :=
  initialHeaders content options ++
    (o.apiVersion.toList.map fun v => (Text.trim v.name, v.version)) ++
    [("User-Agent", agent)] ++
    token.toList.map fun token => ("Authorization", "Bearer " ++ token.text)

/-- The request with all that is put on it, once and in an attempt. -/
theorem extend_stamped {o : PipelineOptions} (h : o.VersionInHeader) (agent : String)
    (token : Option Token) (endpoint : String) (content : Bytes) (options : UploadOptions) :
    let sent := ((o.stamped agent (initialRequest endpoint content options)).markHeaders).extend
      (token.toList.map Token.header)
    sent.method = .put ∧ sent.url = endpoint ∧ sent.body = content ∧
      sent.headers = sentHeaders o agent token content options := by
  refine ⟨rfl, PipelineOptions.stampedUrl_of_versionInHeader h endpoint, rfl, ?_⟩
  unfold sentHeaders
  rw [← PipelineOptions.stampHeaders_of_versionInHeader h]
  rfl

/-! ## §3. What an outcome means -/

/-- What the service says of stored content in a response. -/
def resultIn (response : Http.Response) : UploadResult where
  status := response.status
  etag := response.header? "etag"
  lastModified := response.header? "last-modified"
  requestId := response.header? "x-ms-request-id"

/-- Why the service refuses, in a response. -/
def refusalIn (response : Http.Response) : Error :=
  .refused response.status (response.header? "x-ms-error-code") (Utf8.decodeLossy response.body)

theorem isSuccess_iff {response : Http.Response} :
    response.isSuccess = true ↔
      200 ≤ response.status.toNat ∧ response.status.toNat < 300 := by
  simp [Http.Response.isSuccess, UInt16.le_iff_toNat_le, UInt16.lt_iff_toNat_lt]

theorem resultOf_of_success {response : Http.Response}
    (h : 200 ≤ response.status.toNat ∧ response.status.toNat < 300) :
    resultOf (.ok response) = .ok (resultIn response) := by
  simp only [resultOf, isSuccess_iff.mpr h, if_true]
  rfl

theorem resultOf_of_refusal {response : Http.Response}
    (h : ¬ (200 ≤ response.status.toNat ∧ response.status.toNat < 300)) :
    resultOf (.ok response) = .error (refusalIn response) := by
  simp only [resultOf, mt isSuccess_iff.mp h]
  rfl

/-- Content is stored exactly if the outcome is a successful response. -/
theorem resultOf_eq_ok_iff {outcome : Outcome} {result : UploadResult} :
    resultOf outcome = .ok result ↔ ∃ response, outcome = .ok response ∧
      (200 ≤ response.status.toNat ∧ response.status.toNat < 300) ∧
      result = resultIn response := by
  constructor
  · intro h
    cases outcome with
    | error e => cases h
    | ok response =>
      by_cases hrange : 200 ≤ response.status.toNat ∧ response.status.toNat < 300
      · rw [resultOf_of_success hrange] at h
        exact ⟨response, rfl, hrange, (Except.ok.inj h).symm⟩
      · rw [resultOf_of_refusal hrange] at h
        cases h
  · rintro ⟨response, rfl, hrange, rfl⟩
    exact resultOf_of_success hrange

/-- The service refuses exactly if the outcome is another response. -/
theorem resultOf_eq_refused_iff {outcome : Outcome} {status : Http.Status} {code : Option String}
    {body : String} :
    resultOf outcome = .error (.refused status code body) ↔
      ∃ response, outcome = .ok response ∧
        ¬ (200 ≤ response.status.toNat ∧ response.status.toNat < 300) ∧
        .refused status code body = refusalIn response := by
  constructor
  · intro h
    cases outcome with
    | error e => cases h
    | ok response =>
      by_cases hrange : 200 ≤ response.status.toNat ∧ response.status.toNat < 300
      · rw [resultOf_of_success hrange] at h
        cases h
      · rw [resultOf_of_refusal hrange] at h
        exact ⟨response, rfl, hrange, (Except.error.inj h).symm⟩
  · rintro ⟨response, rfl, hrange, hrefusal⟩
    rw [resultOf_of_refusal hrange, hrefusal]

/-- The upload fails without a response exactly if the run does, and as it does. -/
theorem resultOf_eq_pipeline_iff {outcome : Outcome} {e : HttpPipeline.Error} :
    resultOf outcome = .error (.pipeline e) ↔ outcome = .error e := by
  constructor
  · intro h
    cases outcome with
    | error e' =>
      cases h
      rfl
    | ok response =>
      by_cases hrange : 200 ≤ response.status.toNat ∧ response.status.toNat < 300
      · rw [resultOf_of_success hrange] at h
        cases h
      · rw [resultOf_of_refusal hrange] at h
        cases h
  · rintro rfl
    rfl

/-! ## §4. Uploads -/

/-- **An upload hands the transport one and the same request, and ends with its last answer.**
With a token or none, and with the API version in a header or nowhere, each attempt reaches the
transport, which is handed a `PUT` of the content to the endpoint, with these headers in this
order and no others. The outcome of the last attempt decides the upload: it is the result in a
response with a status from 200 to 299, the refusal in any other response, and otherwise the
failure itself. -/
theorem uploads_hand_over_one_request {endpoint : String} {token : Option Token}
    {o : PipelineOptions} {t : Transport σ} {client : Client σ}
    (h : ofTransport endpoint (.ofToken token) o t = .ok client) (hversion : o.VersionInHeader)
    (content : Bytes) (options : UploadOptions) (a : Ambient σ) :
    ∃ agent client' initial handovers, o.telemetry.userAgent component clientVersion = .ok agent ∧
      ofTransport endpoint (Credential.ofToken token).journaled o t.journaled = .ok client' ∧
      client'.upload content options (a.journaled []) =
        ((client.upload content options a).1,
          (client.upload content options a).2.journaled handovers) ∧
      uploadRequest endpoint content options = .ok initial ∧
      let attempts := o.attempts agent (.ofToken token) t { a with request := initial }
      let outcome := (client.pipeline.send initial a).1
      handovers = attempts.flatMap (fun x => x.handovers (.ofToken token)) ∧
      (∀ x ∈ attempts, ∃ sent session,
        x.handovers (.ofToken token) = [.authorized x.before.request sent, .sent sent] ∧
        x.outcome = (t.send sent session).outcome) ∧
      (∀ sent, .sent sent ∈ handovers → sent.method = .put ∧ sent.url = endpoint ∧
        sent.body = content ∧ sent.headers = sentHeaders o agent token content options) ∧
      attempts.getLast?.map Attempt.outcome = some outcome ∧
      (∀ result, (client.upload content options a).1 = .ok result ↔
        ∃ response, outcome = .ok response ∧
          (200 ≤ response.status.toNat ∧ response.status.toNat < 300) ∧
          result = resultIn response) ∧
      (∀ status code body,
        (client.upload content options a).1 = .error (.refused status code body) ↔
          ∃ response, outcome = .ok response ∧
            ¬ (200 ≤ response.status.toNat ∧ response.status.toNat < 300) ∧
            .refused status code body = refusalIn response) ∧
      ∀ e, (client.upload content options a).1 = .error (.pipeline e) ↔ outcome = .error e := by
  obtain ⟨hendpoint, agent, hagent, rfl⟩ := ofTransport_eq_ok h
  have hsize := utf8ByteSize_le_of_endpointFault? hendpoint
  have hname := PipelineOptions.namesVersion_of_admitted hagent
  let c : Credential σ := .ofToken token
  let initial := initialRequest endpoint content options
  -- Three headers are there, and three more are put on the request at most.
  have hroom : o.HasRoom token initial :=
    PipelineOptions.hasRoom_of_versionInHeader hversion token (by decide : 3 + 3 ≤ 10)
  let attempts := o.attempts agent c t { a with request := initial }
  have hattempt (x : Attempt σ) (hx : x ∈ attempts) : ∃ sent session,
      x.handovers c = [.authorized x.before.request sent, .sent sent] ∧
      x.outcome = (t.send sent session).outcome ∧
      sent = ((o.stamped agent initial).markHeaders).extend (token.toList.map Token.header) := by
    obtain ⟨handed, hhanded, hrequest, houtcome⟩ := attempt_of_hasRoom hx hroom
    exact ⟨handed.request, handed.toSession, handovers_of_handed hhanded, houtcome, hrequest⟩
  refine ⟨agent, ⟨endpoint, o.pipeline agent c.journaled t.journaled⟩, initial,
    attempts.flatMap fun x => x.handovers c, PipelineOptions.admitted_eq_ok hagent,
    ofTransport_of_admitted hendpoint hagent _ _, ?_, uploadRequest_eq hsize content options,
    rfl, ?_, ?_, ?_, ?_⟩
  · rw [upload_eq hsize, upload_eq hsize, send_journaled]
  · intro x hx
    obtain ⟨sent, session, hhandovers, houtcome, _⟩ := hattempt x hx
    exact ⟨sent, session, hhandovers, houtcome⟩
  · -- What the transport is handed belongs to an attempt, and is the one request of that attempt.
    intro request hmem
    obtain ⟨x, hx, hmem⟩ := List.mem_flatMap.mp hmem
    obtain ⟨sent, session, hhandovers, _, hsent⟩ := hattempt x hx
    obtain rfl : request = sent := by simpa [hhandovers] using hmem
    rw [hsent]
    exact extend_stamped hversion agent token endpoint content options
  · exact outcome_of_hasRoom t hname hroom
  · rw [upload_eq hsize]
    exact ⟨fun _ => resultOf_eq_ok_iff, fun _ _ _ => resultOf_eq_refused_iff,
      fun _ => resultOf_eq_pipeline_iff⟩

/-- A second attempt stores the content, with the same six headers as the first. -/
theorem uploads_hand_over_one_request_after_unavailable :
    let o : PipelineOptions := defaultOptions
    let token : Option Token := some ⟨"tok"⟩
    let t := Transport.scripted Script.nextReply
    let content : Bytes := [104, 105]
    let script : Script := {
      replies := [{ outcome := .ok { status := 503 } },
        { outcome := .ok (Http.Response.withHeader { status := 201 } "ETag" "0x1") }] }
    ∃ client, ofTransport "/c/b" (.ofToken token) o t = .ok client ∧ o.VersionInHeader ∧
      ∃ client', ofTransport "/c/b" (Credential.ofToken token).journaled o t.journaled =
          .ok client' ∧
        let handovers :=
          (client'.upload content {} (Ambient.journaled { peer := script } [])).2.peer.entries
        handovers.length = 4 ∧
          (∀ sent, .sent sent ∈ handovers → sent.url = "/c/b" ∧ sent.body = content ∧
            sent.headers = [("x-ms-blob-type", "BlockBlob"), ("Content-Length", "2"),
              ("Content-Type", "text/plain"), ("x-ms-version", "2019-02-02"),
              ("User-Agent", "nimbus-rs-storage-blob/0.3.0"), ("Authorization", "Bearer tok")]) ∧
          ∃ result, (client.upload content {} { peer := script }).1 = .ok result ∧
            result.status = 201 ∧ result.etag = some "0x1" ∧ result.requestId = none := by
  intro o token t content script
  have hclient : ofTransport "/c/b" (.ofToken token) o t =
      .ok ⟨"/c/b", o.pipeline "nimbus-rs-storage-blob/0.3.0" (.ofToken token) t⟩ := by
    rfl
  have hversion : o.VersionInHeader := by
    rintro v hv
    obtain rfl := Option.some.inj hv
    rfl
  obtain ⟨agent, client', initial, handovers, hagent, hclient', hupload, hinitial, _, _, hsent, _,
    hresult, _⟩ := uploads_hand_over_one_request hclient hversion content {} { peer := script }
  obtain rfl : "nimbus-rs-storage-blob/0.3.0" = agent := Except.ok.inj hagent
  refine ⟨_, hclient, hversion, client', hclient', ?_, fun sent hmem => ?_, ?_⟩
  · obtain rfl : Client.mk "/c/b" (o.pipeline "nimbus-rs-storage-blob/0.3.0"
        (Credential.ofToken token).journaled t.journaled) = client' := Except.ok.inj hclient'
    decide
  · rw [hupload] at hmem
    obtain ⟨_, hurl, hbody, hheaders⟩ := hsent sent hmem
    exact ⟨hurl, hbody, hheaders.trans (by decide)⟩
  · obtain rfl : initialRequest "/c/b" content {} = initial :=
      Except.ok.inj ((uploadRequest_eq (by decide) content {}).symm.trans hinitial)
    let response := Http.Response.withHeader { status := 201 } "ETag" "0x1"
    have houtcome : ((o.pipeline "nimbus-rs-storage-blob/0.3.0" (.ofToken token) t).send
        (initialRequest "/c/b" content {}) { peer := script }).1 = .ok response := by
      decide
    exact ⟨resultIn response, (hresult _).mpr ⟨response, houtcome, by decide, rfl⟩, rfl,
      by decide, by decide⟩

end Blob.Client

end HttpPipeline
