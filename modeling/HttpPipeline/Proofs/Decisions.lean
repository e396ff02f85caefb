import HttpPipeline.Proofs.Deliveries

/-! # The decisions of a registry

  A program of registry operations, together with the callbacks that it reaches, does one thing
  after the other: its deeds. Which lists of deeds a program may perform is said without a
  registry, for any answers and any callbacks invoked. What a registry is at some point is said
  without a program, by the last deed on each of its slots. The two meet in what a registry
  decides: the deeds of a run are answered by the registry as it was at each of them, and not as a
  callback leaves it that is still to run.

  The bound on nested reactions is no part of this. It is a number `n` in a run, and what is
  performed without a bound is performed with every bound that is large enough.
-/

namespace HttpPipeline.Log

/-! ## §1. Deeds -/

/-- Something that was done with a registry. -/
inductive Deed where
  /-- The filter was replaced or cleared. -/
  | setFilter (filter : Option Filter)
  /-- The callback was replaced or cleared. -/
  | setCallback (callback : Option Callback)
  /-- It was asked whether a classification would be delivered. -/
  | asked (c : Classification) (answer : Bool)
  /-- A message was logged, and this callback was invoked on it. What the callback does comes
  after it. -/
  | wrote (c : Classification) (message : Bytes) (answer : Bool) (invoked : Option Callback)

namespace Deed

/-- What the filter was replaced by, if it was. -/
def filter? : Deed → Option (Option Filter)
  | .setFilter filter => some filter
  | _ => none

/-- What the callback was replaced by, if it was. -/
def callback? : Deed → Option (Option Callback)
  | .setCallback callback => some callback
  | _ => none

/-- What was delivered, if something was. -/
def delivery? : Deed → Option Delivery
  | .wrote c message _ (some callback) => some (callback.delivery c message)
  | _ => none

end Deed

/-! ## §2. What a program may do -/

/-- What a callback does with the registry, if `limit` more reactions may run inside one
another, or any number of them. -/
def Callback.reaction (limit : Option Nat) (callback : Callback) (c : Classification)
    (message : Bytes) : Reaction :=
  match limit, callback with
  | some 0, _ => .done
  | _, .tracing => .done
  | _, .labelled _ react => react c message

/-- Whether a program may do these deeds. Each operation is a deed, whatever its answer is and
whatever callback it reaches; the deeds of a callback come between the message that it is invoked
on and what the program does next. -/
inductive Performs : (limit : Option Nat) → Reaction → List Deed → Prop where
  | done {limit} : Performs limit .done []
  | setFilter {limit filter next deeds} :
    Performs limit next deeds →
    Performs limit (.setFilter filter next) (.setFilter filter :: deeds)
  | install {limit callback next deeds} :
    Performs limit next deeds →
    Performs limit (.install callback next) (.setCallback (some callback) :: deeds)
  | uninstall {limit next deeds} :
    Performs limit next deeds →
    Performs limit (.uninstall next) (.setCallback none :: deeds)
  | asked {limit c next answer deeds} :
    Performs limit (next answer) deeds →
    Performs limit (.shouldLog c next) (.asked c answer :: deeds)
  | unheard {limit c message next answer deeds} :
    Performs limit (next answer) deeds →
    Performs limit (.write c message next) (.wrote c message answer none :: deeds)
  | heard {limit c message next answer callback inner deeds} :
    Performs (limit.map Nat.pred) (callback.reaction limit c message) inner →
    Performs limit (next answer) deeds →
    Performs limit (.write c message next)
      (.wrote c message answer (some callback) :: (inner ++ deeds))

/-- What is performed without a bound is performed with every bound that is large enough. -/
theorem Performs.exists_bound {x : Reaction} {deeds : List Deed} (h : Performs none x deeds) :
    ∃ n, ∀ m, n ≤ m → Performs (some m) x deeds := by
  generalize hlimit : (none : Option Nat) = limit at h
  induction h with
  | done => exact ⟨0, fun m _ => .done⟩
  | setFilter _ ih =>
    obtain ⟨n, hn⟩ := ih hlimit
    exact ⟨n, fun m hm => .setFilter (hn m hm)⟩
  | install _ ih =>
    obtain ⟨n, hn⟩ := ih hlimit
    exact ⟨n, fun m hm => .install (hn m hm)⟩
  | uninstall _ ih =>
    obtain ⟨n, hn⟩ := ih hlimit
    exact ⟨n, fun m hm => .uninstall (hn m hm)⟩
  | asked _ ih =>
    obtain ⟨n, hn⟩ := ih hlimit
    exact ⟨n, fun m hm => .asked (hn m hm)⟩
  | unheard _ ih =>
    obtain ⟨n, hn⟩ := ih hlimit
    exact ⟨n, fun m hm => .unheard (hn m hm)⟩
  | @heard _ c message _ _ callback _ _ _ _ ihinner ih =>
    subst hlimit
    obtain ⟨n, hn⟩ := ih rfl
    obtain ⟨k, hk⟩ := ihinner rfl
    -- The callback is one level deeper than the rest of the program.
    refine ⟨max n (k + 1), fun m hm => ?_⟩
    have hnm : n ≤ m := by omega
    have hkm : k ≤ m - 1 := by omega
    have hreaction : callback.reaction (some m) c message = callback.reaction none c message := by
      cases m with
      | zero => omega
      | succ m => cases callback <;> rfl
    refine .heard ?_ (hn m hnm)
    rw [hreaction]
    exact hk (m - 1) hkm

/-! ## §3. What a registry decides -/

namespace Registry

/-- The registry after some deeds: each slot is what it was last set to. -/
def after (r : Registry) (deeds : List Deed) : Registry where
  filter := (deeds.filterMap Deed.filter?).getLast?.getD r.filter
  callback := (deeds.filterMap Deed.callback?).getLast?.getD r.callback
  nesting := r.nesting

/-- Whether a classification is let through: a callback is installed, and the filter, if there
is one, lists it. -/
def Lets (r : Registry) (c : Classification) : Prop :=
  r.callback ≠ none ∧ (r.filter = none ∨ ∃ f, r.filter = some f ∧ c ∈ f.entries)

/-- Whether the registry decides so. A message is delivered exactly if it is let through, and to
the callback that is installed. -/
def Decides (r : Registry) : Deed → Prop
  | .asked c answer => answer = true ↔ r.Lets c
  | .wrote c _ answer invoked =>
    (answer = true ↔ r.Lets c) ∧ invoked = if answer then r.callback else none
  | _ => True

/-- Whether each deed is decided by the registry as the deeds before it made it. -/
def Answers (r : Registry) (deeds : List Deed) : Prop :=
  ∀ past deed future, deeds = past ++ deed :: future → (r.after past).Decides deed

/-- What comes of deeds. -/
def course (r : Registry) (deeds : List Deed) : Course where
  registry := r.after deeds
  deliveries := deeds.filterMap Deed.delivery?

theorem after_append (r : Registry) (front back : List Deed) :
    r.after (front ++ back) = (r.after front).after back := by
  simp only [after, List.filterMap_append, List.getLast?_append, mk.injEq, and_true]
  constructor
  · cases (back.filterMap Deed.filter?).getLast? <;> rfl
  · cases (back.filterMap Deed.callback?).getLast? <;> rfl

theorem after_cons (r : Registry) (deed : Deed) (deeds : List Deed) :
    r.after (deed :: deeds) = (r.after [deed]).after deeds :=
  r.after_append [deed] deeds

theorem Answers.nil (r : Registry) : r.Answers [] := by
  intro past deed future h
  cases past <;> cases h

/-- The first deed is decided by the registry, the others by what it is after that. -/
theorem answers_cons {r : Registry} {deed : Deed} {deeds : List Deed} :
    r.Answers (deed :: deeds) ↔ r.Decides deed ∧ (r.after [deed]).Answers deeds := by
  constructor
  · intro h
    refine ⟨h [] deed deeds rfl, ?_⟩
    rintro past other future rfl
    rw [← after_cons]
    exact h (deed :: past) other future rfl
  · rintro ⟨hdeed, hdeeds⟩ past other future h
    cases past with
    | nil =>
      obtain ⟨rfl, rfl⟩ := List.cons.inj h
      exact hdeed
    | cons first past =>
      obtain ⟨rfl, rfl⟩ := List.cons.inj h
      rw [after_cons]
      exact hdeeds past other future rfl

theorem answers_append {r : Registry} {front back : List Deed} :
    r.Answers (front ++ back) ↔ r.Answers front ∧ (r.after front).Answers back := by
  induction front generalizing r with
  | nil => exact ⟨fun h => ⟨.nil r, h⟩, fun h => h.2⟩
  | cons deed front ih =>
    rw [List.cons_append, answers_cons, answers_cons, ih, after_cons r deed front, and_assoc]

theorem shouldLog_iff_lets (r : Registry) (c : Classification) :
    r.shouldLog c = true ↔ r.Lets c := by
  unfold shouldLog admits Lets
  cases r.callback with
  | none => simp
  | some callback =>
    cases r.filter with
    | none => simp
    | some f => simp [Filter.contains_iff]

theorem listener?_eq (r : Registry) (c : Classification) :
    r.listener? c = if r.shouldLog c then r.callback else none := by
  unfold listener? shouldLog
  cases r.callback with
  | none => simp
  | some callback => simp

/-- A registry has one decision on a message. -/
theorem Decides.eq_of_wrote {r : Registry} {c : Classification} {message : Bytes} {answer : Bool}
    {invoked : Option Callback} (h : r.Decides (.wrote c message answer invoked)) :
    answer = r.shouldLog c ∧ r.listener? c = invoked := by
  obtain ⟨hanswer, hinvoked⟩ := h
  have hshould : answer = r.shouldLog c := by
    rw [Bool.eq_iff_iff, hanswer, shouldLog_iff_lets]
  refine ⟨hshould, ?_⟩
  rw [listener?_eq, ← hshould]
  exact hinvoked.symm

theorem decides_wrote (r : Registry) (c : Classification) (message : Bytes) :
    r.Decides (.wrote c message (r.shouldLog c) (r.listener? c)) :=
  ⟨r.shouldLog_iff_lets c, r.listener?_eq c⟩

/-- What comes of some deeds, and then of others. -/
theorem course_andThen {r : Registry} {front back : List Deed} {next : Registry → Course}
    (h : next (r.after front) = (r.after front).course back) :
    (r.course front).andThen next = r.course (front ++ back) := by
  rw [Course.andThen_of_no_fault next rfl]
  simp only [course, h, after_append, List.filterMap_append]

end Registry

/-! ## §4. Runs -/

/-- A callback takes the message, and then does what it does. -/
theorem Callback.invoke_eq (n : Nat) (callback : Callback) (c : Classification)
    (message : Bytes) (r : Registry) :
    Callback.invoke n callback c message r =
      let after := (callback.reaction (some n) c message).run (Callback.invoke n.pred) r
      { after with deliveries := callback.delivery c message :: after.deliveries } := by
  cases n with
  | zero => cases callback <;> rfl
  | succ n => cases callback <;> rfl

/-- A deed that delivers nothing adds to the course what it makes of the registry. -/
theorem Registry.course_cons {r : Registry} {deed : Deed} (h : deed.delivery? = none)
    (deeds : List Deed) : r.course (deed :: deeds) = (r.after [deed]).course deeds := by
  simp only [course, List.filterMap_cons, h]
  rw [after_cons]

/-- A message that is let through is delivered, and its callback runs on the registry as it is. -/
theorem Registry.dispatch_of_heard {n : Nat} {r : Registry} {c : Classification} {message : Bytes}
    {callback : Callback} {inner : List Deed} (hlistener : r.listener? c = some callback)
    (hinner : (callback.reaction (some n) c message).run (Callback.invoke n.pred) r =
      r.course inner) (answer : Bool) :
    r.dispatch (Callback.invoke n) c message =
      r.course (.wrote c message answer (some callback) :: inner) := by
  simp only [dispatch, hlistener, Callback.invoke_eq, hinner]
  rfl

theorem Registry.dispatch_of_unheard {n : Nat} {r : Registry} {c : Classification}
    {message : Bytes} (hlistener : r.listener? c = none) (answer : Bool) :
    r.dispatch (Callback.invoke n) c message = r.course [.wrote c message answer none] := by
  simp only [dispatch, hlistener]
  rfl

/-- **Deeds that the registry decides are what the program does.** -/
theorem Performs.run_eq {n : Nat} {x : Reaction} {deeds : List Deed} {r : Registry}
    (h : Performs (some n) x deeds) (hr : r.Answers deeds) :
    x.run (Callback.invoke n) r = r.course deeds := by
  -- By induction on what is performed, for every registry: the deeds after the first one are
  -- answered by what the first one leaves, and those of a callback under a smaller bound.
  generalize hlimit : some n = limit at h
  induction h generalizing n r with
  | done => rfl
  | setFilter _ ih | install _ ih | uninstall _ ih =>
    rw [Registry.course_cons rfl]
    exact ih (Registry.answers_cons.mp hr).2 hlimit
  | @asked _ c _ answer _ _ ih =>
    obtain ⟨hanswer, hr⟩ := Registry.answers_cons.mp hr
    obtain rfl : answer = r.shouldLog c := by
      rw [Bool.eq_iff_iff, Registry.shouldLog_iff_lets]
      exact hanswer
    rw [Registry.course_cons rfl]
    exact ih hr hlimit
  | unheard _ ih =>
    obtain ⟨hanswer, hr⟩ := Registry.answers_cons.mp hr
    obtain ⟨rfl, hlistener⟩ := hanswer.eq_of_wrote
    rw [Reaction.run, Registry.dispatch_of_unheard hlistener (r.shouldLog _)]
    exact Registry.course_andThen (ih hr hlimit)
  | heard _ _ ihinner ih =>
    subst hlimit
    obtain ⟨hanswer, hr⟩ := Registry.answers_cons.mp hr
    obtain ⟨rfl, hlistener⟩ := hanswer.eq_of_wrote
    obtain ⟨hinner, hrest⟩ := Registry.answers_append.mp hr
    rw [Reaction.run, Registry.dispatch_of_heard hlistener (ihinner hinner rfl) (r.shouldLog _)]
    exact Registry.course_andThen (ih hrest rfl)

/-- A course that does not break off after another one has neither broken off. -/
theorem Course.fault_andThen_eq_none {first : Course} {next : Registry → Course}
    (h : (first.andThen next).fault = none) :
    first.fault = none ∧ (next first.registry).fault = none := by
  cases hfirst : first.fault with
  | some e =>
    rw [andThen_of_fault next hfirst, hfirst] at h
    cases h
  | none =>
    rw [andThen_of_no_fault next hfirst] at h
    exact ⟨rfl, h⟩

/-- **A run that does not break off is one of deeds that the registry decides,** if that holds of
the callbacks. -/
theorem Reaction.exists_deeds_of_callbacks {n : Nat}
    (hcallbacks : ∀ callback c message r,
      (Callback.invoke n callback c message r).fault = none →
        ∃ inner, Performs (some n.pred) (callback.reaction (some n) c message) inner ∧
          r.Answers inner) :
    ∀ (x : Reaction) (r : Registry), (x.run (Callback.invoke n) r).fault = none →
      ∃ deeds, Performs (some n) x deeds ∧ r.Answers deeds
  | .done, r, _ => ⟨[], .done, .nil r⟩
  | .setFilter filter next, r, h => by
    obtain ⟨deeds, hdeeds, hr⟩ :=
      exists_deeds_of_callbacks hcallbacks next (r.setFilter filter) h
    exact ⟨_, .setFilter hdeeds, Registry.answers_cons.mpr ⟨trivial, hr⟩⟩
  | .install callback next, r, h => by
    obtain ⟨deeds, hdeeds, hr⟩ :=
      exists_deeds_of_callbacks hcallbacks next (r.setCallback (some callback)) h
    exact ⟨_, .install hdeeds, Registry.answers_cons.mpr ⟨trivial, hr⟩⟩
  | .uninstall next, r, h => by
    obtain ⟨deeds, hdeeds, hr⟩ :=
      exists_deeds_of_callbacks hcallbacks next (r.setCallback none) h
    exact ⟨_, .uninstall hdeeds, Registry.answers_cons.mpr ⟨trivial, hr⟩⟩
  | .shouldLog c next, r, h => by
    obtain ⟨deeds, hdeeds, hr⟩ :=
      exists_deeds_of_callbacks hcallbacks (next (r.shouldLog c)) r h
    exact ⟨_, .asked hdeeds, Registry.answers_cons.mpr ⟨r.shouldLog_iff_lets c, hr⟩⟩
  | .write c message next, r, h => by
    obtain ⟨hfirst, hnext⟩ := Course.fault_andThen_eq_none h
    have hdecides := r.decides_wrote c message
    cases hlistener : r.listener? c with
    | none =>
      rw [hlistener] at hdecides
      rw [Registry.dispatch_of_unheard hlistener (r.shouldLog c)] at hnext
      obtain ⟨deeds, hdeeds, hr⟩ :=
        exists_deeds_of_callbacks hcallbacks (next (r.shouldLog c)) r hnext
      exact ⟨_, .unheard hdeeds, Registry.answers_cons.mpr ⟨hdecides, hr⟩⟩
    | some callback =>
      rw [hlistener] at hdecides
      rw [Registry.dispatch, hlistener] at hfirst
      obtain ⟨inner, hinner, hrinner⟩ := hcallbacks callback c message r hfirst
      rw [Registry.dispatch_of_heard hlistener (hinner.run_eq hrinner) (r.shouldLog c)] at hnext
      -- What comes next finds the registry as the callback leaves it.
      obtain ⟨deeds, hdeeds, hr⟩ :=
        exists_deeds_of_callbacks hcallbacks (next (r.shouldLog c)) (r.after inner) hnext
      refine ⟨_, .heard hinner hdeeds, Registry.answers_cons.mpr ⟨hdecides, ?_⟩⟩
      exact Registry.answers_append.mpr ⟨hrinner, hr⟩

/-- **A run that does not break off is one of deeds that the registry decides.** -/
theorem Reaction.exists_deeds (n : Nat) (x : Reaction) (r : Registry)
    (h : (x.run (Callback.invoke n) r).fault = none) :
    ∃ deeds, Performs (some n) x deeds ∧ r.Answers deeds := by
  -- The programs cannot be compared in size with what their callbacks do, so the bound is what
  -- the induction is on.
  induction n generalizing x r with
  | zero =>
    refine exists_deeds_of_callbacks (fun callback c message r _ => ⟨[], ?_, .nil r⟩) x r h
    exact .done
  | succ n ih =>
    refine exists_deeds_of_callbacks (fun callback c message r hinvoke => ?_) x r h
    rw [Callback.invoke_eq] at hinvoke
    exact ih _ r hinvoke

/-- **The decisions of a registry.** A program that does not break off, with any bound on nested
callbacks, does deeds in order, its own and those of the callbacks that it reaches. Each answer is
that of the registry as the last set of each slot before it made it; a message that is let through
reaches the callback installed then, whatever that callback does to the registry. What the
registry is in the end, and what is delivered, comes of the same deeds. What is done without a
bound is what every run does whose bound is large enough. Sets of different slots commute, and a
set repeated is a set. -/
theorem registry_decides_by_last_sets (r : Registry) (x : Reaction) :
    (∀ c, r.shouldLog c = true ↔ r.Lets c) ∧
    (∀ c message next, (Reaction.write c message next).run (Callback.invoke r.nesting) r =
      (r.write c message).andThen ((next (r.shouldLog c)).run (Callback.invoke r.nesting))) ∧
    (∀ n, (x.run (Callback.invoke n) r).fault = none →
      ∃ deeds, Performs (some n) x deeds ∧ r.Answers deeds ∧
        x.run (Callback.invoke n) r = r.course deeds) ∧
    (∀ deeds, Performs none x deeds → r.Answers deeds →
      ∃ n, ∀ m, n ≤ m → x.run (Callback.invoke m) r = r.course deeds) ∧
    (∀ past future filter callback,
      r.after (past ++ .setFilter filter :: .setCallback callback :: future) =
          r.after (past ++ .setCallback callback :: .setFilter filter :: future) ∧
        r.after (past ++ .setFilter filter :: .setFilter filter :: future) =
          r.after (past ++ .setFilter filter :: future) ∧
        r.after (past ++ .setCallback callback :: .setCallback callback :: future) =
          r.after (past ++ .setCallback callback :: future)) := by
  refine ⟨r.shouldLog_iff_lets, fun _ _ _ => rfl, fun n hfault => ?_, fun deeds hdeeds hr => ?_,
    fun past future filter callback => ?_⟩
  · obtain ⟨deeds, hdeeds, hr⟩ := x.exists_deeds n r hfault
    exact ⟨deeds, hdeeds, hr, hdeeds.run_eq hr⟩
  · obtain ⟨n, hn⟩ := hdeeds.exists_bound
    exact ⟨n, fun m hm => (hn m hm).run_eq hr⟩
  · -- Each side sets the slots of what the past made, and the future goes on from there.
    have hsets (front : List Deed) :
        r.after (past ++ (front ++ future)) = ((r.after past).after front).after future := by
      rw [Registry.after_append, Registry.after_append]
    have hsame {front front' : List Deed}
        (h : (r.after past).after front = (r.after past).after front') :
        r.after (past ++ (front ++ future)) = r.after (past ++ (front' ++ future)) := by
      rw [hsets, hsets, h]
    refine ⟨?_, ?_, ?_⟩
    · exact @hsame [.setFilter filter, .setCallback callback]
        [.setCallback callback, .setFilter filter] rfl
    · exact @hsame [.setFilter filter, .setFilter filter] [.setFilter filter] rfl
    · exact @hsame [.setCallback callback, .setCallback callback] [.setCallback callback] rfl

/-- A callback that replaces itself and the filter while it runs, and then logs: its own message
reached it, the later ones reach the other callback. -/
theorem registry_decides_by_last_sets_while_running :
    let text := Utf8.encode
    let second := Callback.recording "second"
    let only : Filter := ⟨[.httpRetry]⟩
    let first := Callback.labelled "first" fun _ _ =>
      .install second (.setFilter (some only) (.write .httpRetry (text "two") fun _ => .done))
    let r : Registry := { callback := some first }
    let x : Reaction := .write .httpRequest (text "one") fun _ =>
      .shouldLog .httpRequest fun _ => .write .httpRetry (text "three") fun _ => .done
    let deeds : List Deed := [
      .wrote .httpRequest (text "one") true (some first),
      .setCallback (some second), .setFilter (some only),
      .wrote .httpRetry (text "two") true (some second),
      .asked .httpRequest false,
      .wrote .httpRetry (text "three") true (some second)]
    Performs none x deeds ∧ r.Answers deeds ∧
      (∃ n, ∀ m, n ≤ m → x.run (Callback.invoke m) r = r.course deeds) ∧
      (x.run (Callback.invoke 3) r).fault = none ∧
      ∃ done, Performs (some 3) x done ∧ r.Answers done ∧
        done.filterMap Deed.delivery? = [.recorded "first" .httpRequest (text "one"),
          .recorded "second" .httpRetry (text "two"),
          .recorded "second" .httpRetry (text "three")] := by
  intro text second only first r x deeds
  have hlogged (message : Bytes) :
      Performs none (.write .httpRetry message fun _ => .done)
        [.wrote .httpRetry message true (some second)] :=
    @Performs.heard none _ _ _ _ second [] [] .done .done
  have hfirst : Performs none (first.reaction none .httpRequest (text "one"))
      [.setCallback (some second), .setFilter (some only),
        .wrote .httpRetry (text "two") true (some second)] :=
    .install (.setFilter (hlogged (text "two")))
  have hdeeds : Performs none x deeds :=
    @Performs.heard none _ _ _ _ first _ _ hfirst (.asked (hlogged (text "three")))
  have hr : r.Answers deeds := by
    simp only [deeds, Registry.answers_cons]
    refine ⟨?_, trivial, trivial, ?_, ?_, ?_, .nil _⟩
    · exact r.decides_wrote .httpRequest (text "one")
    · exact Registry.decides_wrote _ .httpRetry (text "two")
    · exact Registry.shouldLog_iff_lets ⟨some only, some second, r.nesting⟩ .httpRequest
    · exact Registry.decides_wrote _ .httpRetry (text "three")
  have hfault : (x.run (Callback.invoke 3) r).fault = none := rfl
  obtain ⟨_, _, hruns, hunbounded, _⟩ := registry_decides_by_last_sets r x
  obtain ⟨done, hdone, hrdone, hcourse⟩ := hruns 3 hfault
  refine ⟨hdeeds, hr, hunbounded deeds hdeeds hr, hfault, done, hdone, hrdone, ?_⟩
  have hdelivered : done.filterMap Deed.delivery? = (x.run (Callback.invoke 3) r).deliveries :=
    (congrArg Course.deliveries hcourse).symm
  rw [hdelivered]
  rfl

end HttpPipeline.Log
