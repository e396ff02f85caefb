import HttpPipeline.Call

/-! # What reaches the log

  The trace of a call mixes what reached a log callback with everything else that happened. Here
  the two are told apart: `deliveries` is the log of a trace, `unlogged` is the rest of it. Then
  the callbacks that only record. They may ask the registry what it would deliver, but they
  neither write to it nor change it, so logging a message to one of them is one delivery at most
  and leaves the registry as it was.
-/

namespace HttpPipeline

variable {σ : Type}

/-! ## §1. The log of a trace -/

/-- The delivery of a message, and its instant, if the event is one. -/
def Event.delivery? (e : Event) : Option (Nat × Log.Delivery) :=
  match e.occurrence with
  | .logged delivery => some (e.instant, delivery)
  | _ => none

/-- What was delivered to log callbacks, in order. -/
def deliveries (trace : List Event) : List (Nat × Log.Delivery) :=
  trace.filterMap Event.delivery?

/-- What happened besides, in order. -/
def unlogged (trace : List Event) : List Event :=
  trace.filter fun e => e.delivery?.isNone

@[simp] theorem deliveries_append (front back : List Event) :
    deliveries (front ++ back) = deliveries front ++ deliveries back :=
  List.filterMap_append

@[simp] theorem unlogged_append (front back : List Event) :
    unlogged (front ++ back) = unlogged front ++ unlogged back :=
  List.filter_append front back

/-- The events of deliveries are the log of themselves. -/
theorem deliveries_logged (now : Nat) (messages : List Log.Delivery) :
    deliveries (messages.map fun delivery => ⟨now, .logged delivery⟩) =
      messages.map fun delivery => (now, delivery) := by
  induction messages with
  | nil => rfl
  | cons delivery messages ih => exact congrArg ((now, delivery) :: ·) ih

/-- The events of deliveries are nothing besides the log. -/
theorem unlogged_logged (now : Nat) (messages : List Log.Delivery) :
    unlogged (messages.map fun delivery => ⟨now, .logged delivery⟩) = [] := by
  induction messages with
  | nil => rfl
  | cons delivery messages ih => exact ih

/-- Logging a message leaves the rest of the trace as it was, whatever the callback does. -/
@[simp] theorem unlogged_logText (call : Call σ) (c : Log.Classification) (message : String) :
    unlogged (call.logText c message).trace = unlogged call.trace := by
  show unlogged (call.trace ++ _) = _
  rw [unlogged_append, unlogged_logged, List.append_nil]

namespace Log

/-! ## §2. Callbacks that only record -/

/-- Whether a reaction leaves the registry alone, and ends. It may ask what would be
delivered. -/
def Reaction.Quiet : Reaction → Prop
  | .done => True
  | .shouldLog _ next => ∀ answer, (next answer).Quiet
  | _ => False

/-- Whether a callback only records. -/
def Callback.Quiet : Callback → Prop
  | .tracing => True
  | .labelled _ react => ∀ c message, (react c message).Quiet

theorem Callback.quiet_recording (label : String) : (recording label).Quiet :=
  fun _ _ => trivial

/-- How a message reaches a callback. -/
def Callback.delivery (callback : Callback) (c : Classification) (message : Bytes) : Delivery :=
  match callback with
  | .tracing => .traced c (Utf8.decodeLossy message)
  | .labelled label _ => .recorded label c message

@[simp] theorem Callback.classification_delivery (callback : Callback) (c : Classification)
    (message : Bytes) : (callback.delivery c message).classification = c := by
  cases callback <;> rfl

/-- A quiet reaction comes to nothing. -/
theorem Reaction.run_of_quiet (invoke : Invocation) (r : Registry) :
    ∀ reaction : Reaction, reaction.Quiet → reaction.run invoke r = { registry := r }
  | .done, _ => rfl
  | .shouldLog c next, h => run_of_quiet invoke r (next (r.shouldLog c)) (h (r.shouldLog c))

/-- A quiet callback takes the message, and that is all. -/
theorem Callback.invoke_of_quiet {callback : Callback} (h : callback.Quiet) (nesting : Nat)
    (c : Classification) (message : Bytes) (r : Registry) :
    Callback.invoke nesting callback c message r =
      { registry := r, deliveries := [callback.delivery c message] } := by
  cases callback with
  | tracing => cases nesting <;> rfl
  | labelled label react =>
    cases nesting with
    | zero => rfl
    | succ nesting =>
      have hreact := Reaction.run_of_quiet (Callback.invoke nesting) r (react c message) (h c message)
      simp only [Callback.invoke, hreact]
      rfl

/-- Logging to a quiet callback delivers the message if the filter lets it through, and leaves
the registry as it is. -/
theorem Registry.write_of_quiet {r : Registry} {callback : Callback}
    (hcallback : r.callback = some callback) (h : callback.Quiet) (c : Classification)
    (message : Bytes) :
    r.write c message =
      { registry := r
        deliveries := if r.admits c then [callback.delivery c message] else [] } := by
  unfold write dispatch listener?
  rw [hcallback]
  cases r.admits c with
  | true => exact Callback.invoke_of_quiet h r.nesting c message r
  | false => rfl

/-! ## §3. Entries of the log -/

/-- A message at the instant at which it is logged. -/
structure Entry where
  instant : Nat
  classification : Classification
  text : String

/-- The delivery of an entry to a callback. -/
def Entry.deliveredTo (callback : Callback) (entry : Entry) : Nat × Delivery :=
  (entry.instant, callback.delivery entry.classification (Utf8.encode entry.text))

/-- What reaches the callback of a registry when entries are logged. -/
def Registry.record (r : Registry) (callback : Callback) (entries : List Entry) :
    List (Nat × Delivery) :=
  (entries.filter fun entry => r.admits entry.classification).map
    (Entry.deliveredTo callback)

theorem Registry.record_append (r : Registry) (callback : Callback)
    (front back : List Entry) :
    r.record callback (front ++ back) =
      r.record callback front ++ r.record callback back := by
  simp [record]

/-- Without a filter, all entries reach the callback. -/
theorem Registry.record_of_open {r : Registry} (h : r.filter = none) (callback : Callback)
    (entries : List Entry) :
    r.record callback entries = entries.map (Entry.deliveredTo callback) := by
  have hadmits (c : Classification) : r.admits c = true := by simp [admits, h]
  rw [record, List.filter_eq_self.mpr fun entry _ => hadmits entry.classification]

/-- With a filter, those that it lists do. -/
theorem Registry.record_setFilter (r : Registry) (f : Filter) (callback : Callback)
    (entries : List Entry) :
    (r.setFilter (some f)).record callback entries =
      (entries.map (Entry.deliveredTo callback)).filter
        fun delivered => f.contains delivered.2.classification := by
  have hadmits (c : Classification) : (r.setFilter (some f)).admits c = f.contains c := rfl
  simp only [record, hadmits, List.filter_map]
  congr 2
  funext entry
  simp [Entry.deliveredTo]

end Log

/-- Whether a registry has this callback, and the callback only records. -/
structure Log.Registry.ListensQuietly (r : Log.Registry) (listener : Log.Callback) : Prop where
  callback : r.callback = some listener
  quiet : listener.Quiet

/-- Logging a text to a quiet callback is one entry of the log. -/
theorem logText_of_quiet {call : Call σ} {callback : Log.Callback}
    (h : call.registry.ListensQuietly callback) (c : Log.Classification) (text : String) :
    (call.logText c text).registry = call.registry ∧
      deliveries (call.logText c text).trace =
        deliveries call.trace ++ call.registry.record callback [⟨call.now, c, text⟩] := by
  have hwrite := Log.Registry.write_of_quiet h.callback h.quiet c (Utf8.encode text)
  refine ⟨congrArg Log.Course.registry hwrite, ?_⟩
  show deliveries (call.trace ++ _) = _
  rw [deliveries_append, deliveries_logged, hwrite]
  cases hadmits : call.registry.admits c with
  | true => simp [Log.Registry.record, hadmits, Log.Entry.deliveredTo]
  | false => simp [Log.Registry.record, hadmits]

end HttpPipeline
