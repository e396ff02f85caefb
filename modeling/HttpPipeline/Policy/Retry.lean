import HttpPipeline.Log.Message
import HttpPipeline.Pipeline

/-! # Retry policy

  Runs the rest of the chain again when its outcome is a response with a retryable status or
  a transient failure. Between two attempts it waits, for the time that the response asks for
  or else for a time that doubles with each retry. It stops when the attempts are used up,
  when the wait would not end before the deadline, and when the call is cancelled; the last
  outcome is passed on as it is.
-/

namespace HttpPipeline

/-! ## §1. Options -/

/-- How often and when a request is sent again. -/
structure RetryOptions where
  /-- How many retries may follow the first attempt. -/
  maxRetries : UInt32 := 4
  /-- The wait before the first retry in milliseconds. -/
  retryDelay : UInt64 := 4000
  /-- The longest wait that the doubling leads to in milliseconds. -/
  maxRetryDelay : UInt64 := 120000
  /-- The statuses of responses after which the request is sent again. -/
  statusCodes : List Http.Status := [408, 429, 500, 502, 503, 504]
  deriving DecidableEq, Repr

/-- The greatest 32-bit number. -/
def maxWord32 : Nat := UInt32.size - 1

/-- The greatest 64-bit number. -/
def maxWord64 : Nat := UInt64.size - 1

/-- A power of two, or the greatest 64-bit number if the power is greater. -/
def boundedPowerOfTwo (exponent : Nat) : Nat :=
  if exponent < 64 then Nat.pow 2 exponent else maxWord64

/-- A product, or the greatest 64-bit number if the product is greater. -/
def boundedProduct (a b : Nat) : Nat :=
  min (a * b) maxWord64

namespace RetryOptions

/-- How often the rest of the chain may run. -/
def maxAttempts (o : RetryOptions) : Nat :=
  min (o.maxRetries.toNat + 1) maxWord32

/-- The wait before a retry, counted from one. -/
def delay (o : RetryOptions) (retry : Nat) : Nat :=
  min (boundedProduct o.retryDelay.toNat (boundedPowerOfTwo (retry - 1))) o.maxRetryDelay.toNat

/-- No wait is longer than the longest one allowed. -/
theorem delay_le (o : RetryOptions) (retry : Nat) : o.delay retry ≤ o.maxRetryDelay.toNat :=
  Nat.min_le_right _ _

/-- The rest of the chain may run at least once. -/
theorem one_le_maxAttempts (o : RetryOptions) : 1 ≤ o.maxAttempts :=
  Nat.le_min.mpr ⟨Nat.le_add_left 1 _, by decide⟩

/-- Whether a response with this status is followed by a retry. -/
def isRetryableStatus (o : RetryOptions) (status : Http.Status) : Bool :=
  o.statusCodes.contains status

/-- Whether an outcome is followed by a retry. -/
def shouldRetry (o : RetryOptions) (outcome : Outcome) : Bool :=
  match outcome with
  | .ok response => o.isRetryableStatus response.status
  | .error e => e.isRetryable

/-- The description of the options. -/
def describe (o : RetryOptions) : String :=
  "RetryOptions \x7b max_retries: " ++ toString o.maxRetries
    ++ ", retry_delay_ms: " ++ toString o.retryDelay
    ++ ", max_retry_delay_ms: " ++ toString o.maxRetryDelay
    ++ ", status_codes: " ++ Text.bracketed (o.statusCodes.map toString) ++ " \x7d"

end RetryOptions

/-! ## §2. The wait that a response asks for -/

/-- The headers that ask for a wait in milliseconds, the decisive one first. -/
def retryAfterMillisNames : List String :=
  ["retry-after-ms", "x-ms-retry-after-ms"]

/-- The count in a header, if there is the header and a 64-bit count in it. -/
def headerCount? (response : Http.Response) (name : String) : Option Nat :=
  (response.header? name).bind fun value => Text.countBelow? UInt64.size (Text.trim value)

/-- The wait in milliseconds that a response asks for: in milliseconds, or else in seconds. -/
def retryAfter? (response : Http.Response) : Option Nat :=
  match retryAfterMillisNames.findSome? (headerCount? response) with
  | some millis => some millis
  | none => (headerCount? response "retry-after").map (· * 1000)

/-- The wait after an outcome, before the given retry. -/
def RetryOptions.waitAfter (o : RetryOptions) (retry : Nat) (outcome : Outcome) : Nat :=
  match outcome with
  | .ok response => (retryAfter? response).getD (o.delay retry)
  | .error _ => o.delay retry

/-! ## §3. The policy -/

variable {σ : Type}

/-- Whether a call is cancelled now or its deadline comes within a wait. -/
def Session.endsWithin (s : Session σ) (span : Nat) : Bool :=
  s.isCancelled || s.context.expiresWithin s.now span

namespace RetryOptions

/-- Makes attempt number `attempt` at the rest of a chain, and `left` more at most. -/
def attemptFrom (o : RetryOptions) (rest : Exchange σ) : (left attempt : Nat) → Exchange σ
  | 0, _, call => rest call
  | left + 1, attempt, call =>
    let (outcome, call) := rest call
    if o.shouldRetry outcome then
      let span := o.waitAfter attempt outcome
      if call.endsWithin span then (outcome, call)
      else
        let call := call.logText .httpRetry (Log.retryMessage attempt span)
        match call.context.wait call.now span with
        | .cancelled instant => (outcome, { call with now := instant })
        | .over instant =>
          attemptFrom o rest left (attempt + 1)
            { call with now := instant, request := call.request.dropMarkedHeaders }
    else (outcome, call)

end RetryOptions

/-- The policy that runs the rest of the chain until it need not or must not run again. -/
def Policy.retry (o : RetryOptions) : Policy σ where
  name := "retry"
  process next call :=
    o.attemptFrom next.run (o.maxAttempts - 1) 1
      { call with request := call.request.markHeaders }

/-- The description of a retry policy. -/
def RetryOptions.describePolicy (o : RetryOptions) : String :=
  "RetryPolicy \x7b options: " ++ o.describe ++ ", .. \x7d"

end HttpPipeline
