import HttpPipeline.Error

/-! # Call contexts

  What bounds a call in time: a deadline, and the instant from which it counts as cancelled.
  Instants and spans are whole milliseconds, instants counted from the start of the clock. A
  deadline may lie before that start.

  The clock reaches much farther than a wait lasts. A deadline, and a limit on the wait for
  something else, stand for an instant and are kept as they were set, up to the last instant that
  the clock can represent. A wait is measured by a timer, which runs thirty years at most: a wait
  that was meant to last longer is over then, even where the clock could represent the instant at
  which it was meant to be over. Nothing else learns of that. Whether the deadline comes within a
  wait, for one, is asked with the span that was meant.
-/

namespace HttpPipeline

/-! ## §1. The clock -/

namespace Clock

/-- The first instant beyond what the clock can represent: it counts seconds in 63 bits. -/
def limit : Nat := Nat.pow 2 63 * 1000

/-- The longest that a wait lasts, which is thirty years of 365 days. It counts from the beginning
of the wait, and is far below `limit`. -/
def longestWait : Nat := 30 * 365 * 86400 * 1000

/-- The instant a span after another, if the clock can represent it. -/
def after? (now span : Nat) : Option Nat :=
  if now + span < limit then some (now + span) else none

/-- The instant at which a wait for a span ends that begins now. Every wait is cut to the longest
one, also where `after?` has an instant for the whole span: it is the timer that gives out, not the
clock. -/
def wake (now span : Nat) : Nat :=
  now + min span longestWait

theorem wake_le (now span : Nat) : wake now span ≤ now + span :=
  Nat.add_le_add_left (Nat.min_le_left span longestWait) now

/-- The instant at which a limit ends that is set now. It is not cut to the longest wait, as a wait
for the same span would be: only a limit beyond the clock, for which there is no instant, ends
after the longest wait. -/
def expiry (now span : Nat) : Nat :=
  (after? now span).getD (now + longestWait)

theorem expiry_of_lt {now span : Nat} (h : now + span < limit) :
    expiry now span = now + span := by
  simp [expiry, after?, h]

end Clock

/-! ## §2. Contexts -/

/-- The bounds of a call in time. -/
structure Context where
  /-- The instant by which the call has to be done. -/
  deadline : Option Int := none
  /-- The instant from which the call counts as cancelled. -/
  cancelAt : Option Nat := none
  deriving DecidableEq, Repr

namespace Context

/-- A context that ends a span from now. A span beyond the clock sets no deadline. -/
def withTimeout (now span : Nat) : Context :=
  { deadline := (Clock.after? now span).map Int.ofNat }

/-- The context, cancelled at the given instant at the latest. -/
def cancelBy (ctx : Context) (instant : Nat) : Context :=
  match ctx.cancelAt with
  | none => { ctx with cancelAt := some instant }
  | some earlier => { ctx with cancelAt := some (min earlier instant) }

/-- The context, cancelled after a wait for a span that begins now. -/
def cancelAfter (ctx : Context) (now span : Nat) : Context :=
  ctx.cancelBy (Clock.wake now span)

/-- Whether the call is cancelled. -/
def isCancelled (ctx : Context) (now : Nat) : Bool :=
  match ctx.cancelAt with
  | none => false
  | some instant => instant ≤ now

/-- Whether the deadline is now or has passed. -/
def isExpired (ctx : Context) (now : Nat) : Bool :=
  match ctx.deadline with
  | none => false
  | some deadline => deadline ≤ now

/-- How long the deadline is away, which is no time once it has passed. -/
def remaining (ctx : Context) (now : Nat) : Option Nat :=
  ctx.deadline.map fun (deadline : Int) => (deadline - (now : Int)).toNat

/-- Whether the deadline comes within a span from now. -/
def expiresWithin (ctx : Context) (now span : Nat) : Bool :=
  match ctx.remaining now with
  | none => false
  | some left => left ≤ span

/-- Fails if work can no longer be started. Cancellation is reported before the deadline. -/
def check (ctx : Context) (now : Nat) : Except Error Unit :=
  if ctx.isCancelled now then .error .cancelled
  else if ctx.isExpired now then .error .timeout
  else .ok ()

/-! ## §3. Waiting -/

/-- How a wait ended. -/
inductive Wait where
  /-- It lasted its whole span, until this instant. -/
  | over (instant : Nat)
  /-- The call was cancelled at this instant. -/
  | cancelled (instant : Nat)
  deriving DecidableEq, Repr

/-- Waits until an instant or until the call is cancelled, whichever comes first. -/
def waitUntil (ctx : Context) (now wake : Nat) : Wait :=
  match ctx.cancelAt with
  | none => .over wake
  | some instant => if instant ≤ wake then .cancelled (max now instant) else .over wake

/-- Waits for a span or until the call is cancelled, whichever comes first. -/
def wait (ctx : Context) (now span : Nat) : Wait :=
  ctx.waitUntil now (Clock.wake now span)

/-- Waits until the call is cancelled, with a limit on the wait. -/
def awaitCancel (ctx : Context) (now span : Nat) : Wait :=
  ctx.waitUntil now (Clock.expiry now span)

/-! ## §4. Racing -/

/-- How an exchange ended. -/
inductive Finish where
  /-- Its reply arrived at this instant. -/
  | replied (instant : Nat)
  /-- The deadline passed at this instant. -/
  | expired (instant : Nat)
  /-- The call was cancelled at this instant. -/
  | cancelled (instant : Nat)
  deriving DecidableEq, Repr

/-- The instant at which an exchange ended. -/
def Finish.instant : Finish → Nat
  | .replied instant | .expired instant | .cancelled instant => instant

/-- How an exchange ends whose reply is due at an instant, if nothing cancels it. A reply that
is due exactly at the deadline still counts. -/
def finishByDeadline (ctx : Context) (replyAt : Nat) : Finish :=
  match ctx.deadline with
  | none => .replied replyAt
  | some deadline =>
    if deadline < (replyAt : Int) then .expired deadline.toNat else .replied replyAt

/-- How an exchange ends whose reply is due at an instant. -/
def finish (ctx : Context) (now replyAt : Nat) : Finish :=
  let unhindered := ctx.finishByDeadline replyAt
  match ctx.cancelAt with
  | none => unhindered
  | some instant =>
    if instant ≤ unhindered.instant then .cancelled (max now instant) else unhindered

theorem isCancelled_of_le {ctx : Context} {instant now : Nat} (h : ctx.cancelAt = some instant)
    (hle : instant ≤ now) : ctx.isCancelled now = true := by
  simp [isCancelled, h, hle]

end Context

end HttpPipeline
