import HttpPipeline.Log.Filter
import HttpPipeline.Text.Utf8

/-! # Log registry

  A registry holds a filter and a callback, each of which can be replaced at any time. Every
  decision looks at both slots once, when it is asked for: without a callback nothing is
  delivered, without a filter everything is, and with both only what the filter lists.

  A callback may itself use the registry it is installed in. What it does is a `Reaction`: a
  program of registry operations that may look at their answers. A reaction that logs runs
  the callback installed at that moment, so reactions nest; the registry bounds how deep.

  A reaction may also break off with a fault. That breaks off every reaction it is nested in,
  and leaves the registry as it was at that moment.
-/

namespace HttpPipeline.Log

/-! ## §1. Callbacks and reactions -/

mutual

/-- What messages are delivered to. -/
inductive Callback where
  /-- Hands the text of a message to the tracing facility. -/
  | tracing
  /-- Records each message under a label, and then reacts to it. -/
  | labelled (label : String) (react : Classification → Bytes → Reaction)

/-- What a callback does with the registry it is installed in. -/
inductive Reaction where
  /-- Nothing more. -/
  | done
  /-- Replaces or clears the filter. -/
  | setFilter (filter : Option Filter) (next : Reaction)
  /-- Replaces the callback. -/
  | install (callback : Callback) (next : Reaction)
  /-- Clears the callback. -/
  | uninstall (next : Reaction)
  /-- Asks whether a classification would be delivered. -/
  | shouldLog (c : Classification) (next : Bool → Reaction)
  /-- Logs a message. -/
  | write (c : Classification) (message : Bytes) (next : Bool → Reaction)
  /-- Breaks off. -/
  | fail (fault : UntrustedCode)

end

instance : Inhabited Reaction := ⟨.done⟩

instance : Inhabited Callback := ⟨.tracing⟩

/-- A callback that only records. -/
def Callback.recording (label : String) : Callback :=
  .labelled label fun _ _ => .done

/-- A message that reached a callback. -/
inductive Delivery where
  /-- To a callback with a label, as octets. -/
  | recorded (label : String) (c : Classification) (message : Bytes)
  /-- To the tracing facility, as text. -/
  | traced (c : Classification) (text : String)
  deriving DecidableEq, Repr

/-- The classification of a delivered message. -/
def Delivery.classification : Delivery → Classification
  | .recorded _ c _ => c
  | .traced c _ => c

/-! ## §2. The registry and its slots -/

/-- The current filter and callback. -/
structure Registry where
  /-- The filter, if one is installed. -/
  filter : Option Filter := none
  /-- The callback, if one is installed. -/
  callback : Option Callback := none
  /-- How many reactions may run inside one another. A callback that is called deeper than
  that records the message and does nothing else. -/
  nesting : Nat := 3

namespace Registry

/-- Replaces or clears the filter. -/
def setFilter (r : Registry) (filter : Option Filter) : Registry :=
  { r with filter }

/-- Replaces or clears the callback. -/
def setCallback (r : Registry) (callback : Option Callback) : Registry :=
  { r with callback }

@[simp] theorem filter_setFilter (r : Registry) (f : Option Filter) :
    (r.setFilter f).filter = f := rfl
@[simp] theorem callback_setFilter (r : Registry) (f : Option Filter) :
    (r.setFilter f).callback = r.callback := rfl
@[simp] theorem nesting_setFilter (r : Registry) (f : Option Filter) :
    (r.setFilter f).nesting = r.nesting := rfl
@[simp] theorem filter_setCallback (r : Registry) (cb : Option Callback) :
    (r.setCallback cb).filter = r.filter := rfl
@[simp] theorem callback_setCallback (r : Registry) (cb : Option Callback) :
    (r.setCallback cb).callback = cb := rfl
@[simp] theorem nesting_setCallback (r : Registry) (cb : Option Callback) :
    (r.setCallback cb).nesting = r.nesting := rfl

/-- Whether the filter lets a classification through. -/
def admits (r : Registry) (c : Classification) : Bool :=
  match r.filter with
  | none => true
  | some f => f.contains c

/-- Whether a message of a classification would be delivered now. -/
def shouldLog (r : Registry) (c : Classification) : Bool :=
  r.callback.isSome && r.admits c

/-- The callback that a message of a classification would be delivered to now. -/
def listener? (r : Registry) (c : Classification) : Option Callback :=
  if r.admits c then r.callback else none

theorem isSome_listener? (r : Registry) (c : Classification) :
    (r.listener? c).isSome = r.shouldLog c := by
  unfold listener? shouldLog
  cases r.admits c <;> simp

end Registry

/-! ## §3. Running reactions -/

/-- What comes of running callbacks. -/
structure Course where
  /-- The registry afterwards. -/
  registry : Registry
  /-- What was delivered, the earliest first. -/
  deliveries : List Delivery := []
  /-- The fault that broke it off, if one did. -/
  fault : Option UntrustedCode := none

namespace Course

/-- Goes on from the registry as it is then, unless a fault has broken off. -/
def andThen (first : Course) (next : Registry → Course) : Course :=
  match first.fault with
  | some _ => first
  | none =>
    let after := next first.registry
    { after with deliveries := first.deliveries ++ after.deliveries }

theorem andThen_of_fault {first : Course} {e : UntrustedCode} (next : Registry → Course)
    (h : first.fault = some e) : first.andThen next = first := by
  simp [andThen, h]

theorem andThen_of_no_fault {first : Course} (next : Registry → Course)
    (h : first.fault = none) :
    first.andThen next =
      ⟨(next first.registry).registry, first.deliveries ++ (next first.registry).deliveries,
        (next first.registry).fault⟩ := by
  simp [andThen, h]

end Course

/-- How a callback is run on a message and the registry. -/
abbrev Invocation := Callback → Classification → Bytes → Registry → Course

/-- Delivers a message to the callback installed now, if the filter lets it through. -/
def Registry.dispatch (invoke : Invocation) (r : Registry) (c : Classification)
    (message : Bytes) : Course :=
  match r.listener? c with
  | none => { registry := r }
  | some callback => invoke callback c message r

/-- Runs a reaction on a registry, with `invoke` for the callbacks that it reaches. -/
def Reaction.run (invoke : Invocation) : Reaction → Registry → Course
  | .done, r => { registry := r }
  | .setFilter filter next, r => next.run invoke (r.setFilter filter)
  | .install callback next, r => next.run invoke (r.setCallback (some callback))
  | .uninstall next, r => next.run invoke (r.setCallback none)
  | .shouldLog c next, r => (next (r.shouldLog c)).run invoke r
  | .write c message next, r =>
    (r.dispatch invoke c message).andThen fun after => (next (r.shouldLog c)).run invoke after
  | .fail fault, r => { registry := r, fault := some fault }

/-- Runs a callback on a message, where `nesting` more reactions may run inside one
another. -/
def Callback.invoke : Nat → Invocation
  | _, .tracing, c, message, r =>
    { registry := r, deliveries := [.traced c (Utf8.decodeLossy message)] }
  | 0, .labelled label _, c, message, r =>
    { registry := r, deliveries := [.recorded label c message] }
  | nesting + 1, .labelled label react, c, message, r =>
    let after := (react c message).run (Callback.invoke nesting) r
    { after with deliveries := .recorded label c message :: after.deliveries }

namespace Registry

/-- What comes of logging a message. -/
def write (r : Registry) (c : Classification) (message : Bytes) : Course :=
  r.dispatch (Callback.invoke r.nesting) c message

theorem write_of_not_shouldLog {r : Registry} {c : Classification} (message : Bytes)
    (h : r.shouldLog c = false) : r.write c message = { registry := r } := by
  have hn : r.listener? c = none := by
    have := r.isSome_listener? c
    simpa [h] using this
  simp [write, dispatch, hn]

/-! ## §4. Description -/

/-- The description of a callback, which shows nothing of it. -/
def callbackDescription : String := "LogCallback \x7b .. \x7d"

/-- The description of a registry: its filter, and whether it has a callback. -/
def describe (r : Registry) : String :=
  let filter := match r.filter with
    | none => "None"
    | some f => "Some(" ++ f.describe ++ ")"
  let hasCallback := if r.callback.isSome then "true" else "false"
  "LogRegistry \x7b filter: " ++ filter ++ ", has_callback: " ++ hasCallback ++ " \x7d"

end Registry

end HttpPipeline.Log
