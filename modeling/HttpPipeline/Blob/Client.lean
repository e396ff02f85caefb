import HttpPipeline.Blob.Error
import HttpPipeline.Options.Basic

/-! # Blob client

  Stores content as a block blob at one URL. The client's pipeline is assembled once, when
  the client is made.
-/

namespace HttpPipeline.Blob

/-! ## §1. Options -/

/-- The version of the storage service's interface. -/
def storageApiVersion : String := "2019-02-02"

/-- The room for headers of an upload. -/
def headerCapacity : Nat := 10

/-- The component that the client reports as. -/
def component : String := "storage-blob"

/-- The version that the client reports. -/
def clientVersion : String := "0.3.0"

/-- The pipeline options of a client for which none are given. -/
def defaultOptions : PipelineOptions where
  apiVersion := some { name := "x-ms-version", version := storageApiVersion }
  retry := { maxRetries := 5, retryDelay := 1000, maxRetryDelay := 30000 }

/-- How content is stored. -/
structure UploadOptions where
  /-- The type that the content is stored under. -/
  contentType : String := "text/plain"
  deriving DecidableEq, Repr

/-- What the service says of stored content. -/
structure UploadResult where
  /-- The status of the response. -/
  status : Http.Status
  /-- The entity tag. -/
  etag : Option String
  /-- The time of the last change. -/
  lastModified : Option String
  /-- The id under which the service handled the request. -/
  requestId : Option String
  deriving DecidableEq, Repr

/-! ## §2. Clients -/

variable {σ : Type}

/-- A client for one blob. -/
structure Client (σ : Type) where
  /-- The URL of the blob. -/
  endpoint : String
  /-- The pipeline that requests go through. -/
  pipeline : Pipeline σ

namespace Client

/-- Why an endpoint cannot be used, if it cannot. -/
def endpointFault? (endpoint : String) : Option ConfigFault :=
  if endpoint = "" then some .emptyEndpoint
  else if Request.defaultUrlCapacity < endpoint.utf8ByteSize then
    some (.longEndpoint endpoint.utf8ByteSize Request.defaultUrlCapacity)
  else none

/-- The client for a blob that reaches it through the given transport. -/
def ofTransport (endpoint : String) (credential : Credential σ) (options : PipelineOptions)
    (transport : Transport σ) : Except Error (Client σ) :=
  match endpointFault? endpoint with
  | some fault => .error (.pipeline (.invalidConfig fault))
  | none =>
    match options.assemble component clientVersion credential transport with
    | .error e => .error (.pipeline e)
    | .ok pipeline => .ok { endpoint, pipeline }

/-- The description of a client. -/
def describe (c : Client σ) : String :=
  "BlobClient \x7b endpoint: " ++ Text.quoted c.endpoint ++ ", pipeline: "
    ++ c.pipeline.describe ++ " \x7d"

/-! ## §3. Uploads -/

/-- The request that stores content at an endpoint. -/
def uploadRequest (endpoint : String) (content : Bytes) (options : UploadOptions) :
    Except HttpPipeline.Error Request := do
  let request ← Request.withCapacity .put endpoint Request.defaultUrlCapacity headerCapacity
  let request ← (request.withBody content).appendHeader "x-ms-blob-type" "BlockBlob"
  let request ← request.appendHeader "Content-Length" (toString content.length)
  request.appendHeader "Content-Type" options.contentType

/-- What the outcome of an upload's request means. -/
def resultOf (outcome : Outcome) : Except Error UploadResult :=
  match outcome with
  | .error e => .error (.pipeline e)
  | .ok response =>
    if response.isSuccess then
      .ok {
        status := response.status
        etag := response.header? "etag"
        lastModified := response.header? "last-modified"
        requestId := response.header? "x-ms-request-id" }
    else
      .error (.refused response.status (response.header? "x-ms-error-code")
        (Utf8.decodeLossy response.body))

/-- Stores content. -/
def upload (c : Client σ) (content : Bytes) (options : UploadOptions) (a : Ambient σ) :
    Except Error UploadResult × Ambient σ :=
  match uploadRequest c.endpoint content options with
  | .error e => (.error (.pipeline e), a)
  | .ok request =>
    let (outcome, _, a) := c.pipeline.send request a
    (resultOf outcome, a)

end Client

end HttpPipeline.Blob
