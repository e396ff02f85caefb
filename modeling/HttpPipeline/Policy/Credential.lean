import HttpPipeline.Pipeline

/-! # Credential policy

  Authorizes every request before it goes on. A credential holds the proof already; what it
  does is to put it on the request.
-/

namespace HttpPipeline

variable {σ : Type}

/-! ## §1. Credentials -/

/-- What a credential did with a request. -/
structure Authorized (σ : Type) where
  /-- Whether the request is authorized. -/
  outcome : Except Error Unit
  /-- The request afterwards, also if it is not authorized. -/
  request : Request
  /-- The session afterwards. -/
  session : Session σ
  /-- What happened meanwhile. -/
  events : List Event := []

/-- Something that authorizes requests. It sees the request and the session, and no more. -/
structure Credential (σ : Type) where
  /-- Authorizes a request. -/
  authorize : Request → Session σ → Authorized σ

namespace Credential

/-- The credential that adds nothing. -/
def anonymous : Credential σ where
  authorize request session := { outcome := .ok (), request, session }

end Credential

/-- A bearer token with a character that is not blank. -/
structure Token where
  /-- The token. -/
  text : String
  deriving DecidableEq

namespace Token

/-- The token with this text. -/
def ofString (text : String) : Except Error Token :=
  if Text.isBlankText text then .error (.invalidConfig .emptyToken) else .ok ⟨text⟩

/-- The value of the header that carries a token. -/
def headerValue (t : Token) : String :=
  "Bearer " ++ t.text

end Token

/-- The credential that adds a bearer token in the header `Authorization`. -/
def Credential.bearer (token : Token) : Credential σ where
  authorize request session :=
    match request.appendHeader "Authorization" token.headerValue with
    | .error e => { outcome := .error e, request, session }
    | .ok request => { outcome := .ok (), request, session }

/-! ## §2. The policy -/

/-- The policy that has every request authorized, and ends the call if it is not. -/
def Policy.credential (credential : Credential σ) : Policy σ where
  name := "credential"
  process next call :=
    let authorized := credential.authorize call.request call.toSession
    let call := { call with
      toSession := authorized.session
      trace := call.trace ++ authorized.events
      request := authorized.request }
    match authorized.outcome with
    | .error e => (.error e, call)
    | .ok () => next.run call

/-! ## §3. Descriptions -/

/-- The description of a bearer token, which does not show it. -/
def Token.describe (_ : Token) : String :=
  "StaticTokenCredential \x7b token: " ++ Text.quoted "[redacted]" ++ " \x7d"

/-- The description of a credential policy, which shows nothing of the credential. -/
def Policy.credentialDescription : String := "CredentialPolicy \x7b .. \x7d"

end HttpPipeline
