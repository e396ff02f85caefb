import HttpPipeline.Context

/-! # What a context decides

  One statement for each question that is put to a context, in terms of its two instants alone.
  Everything about calls in time is derived from these. Then the bounds that a context sets to
  what begins under it, as a relation between instants.
-/

namespace HttpPipeline.Context

/-! ## §1. Decisions -/

theorem isCancelled_iff {ctx : Context} {now : Nat} :
    ctx.isCancelled now = true ↔ ∃ c, ctx.cancelAt = some c ∧ c ≤ now := by
  unfold isCancelled
  cases ctx.cancelAt <;> simp

theorem isCancelled_eq_false_iff {ctx : Context} {now : Nat} :
    ctx.isCancelled now = false ↔ ∀ c, ctx.cancelAt = some c → now < c := by
  unfold isCancelled
  cases ctx.cancelAt <;> simp

theorem isExpired_iff {ctx : Context} {now : Nat} :
    ctx.isExpired now = true ↔ ∃ d, ctx.deadline = some d ∧ d ≤ (now : Int) := by
  unfold isExpired
  cases ctx.deadline <;> simp

theorem isExpired_eq_false_iff {ctx : Context} {now : Nat} :
    ctx.isExpired now = false ↔ ∀ d, ctx.deadline = some d → (now : Int) < d := by
  unfold isExpired
  cases ctx.deadline <;> simp

/-- The time that is left is no time once the deadline has passed, and so comes within every
span then. -/
theorem expiresWithin_iff {ctx : Context} {now span : Nat} :
    ctx.expiresWithin now span = true ↔
      ∃ d, ctx.deadline = some d ∧ d ≤ (now : Int) + (span : Int) := by
  unfold expiresWithin remaining
  cases ctx.deadline with
  | none => simp
  | some d =>
    simp only [Option.map_some, decide_eq_true_eq, Option.some.injEq, exists_eq_left']
    omega

theorem expiresWithin_eq_false_iff {ctx : Context} {now span : Nat} :
    ctx.expiresWithin now span = false ↔
      ∀ d, ctx.deadline = some d → (now : Int) + (span : Int) < d := by
  rw [Bool.eq_false_iff, ne_eq, expiresWithin_iff]
  simp

/-- Work can be started exactly before the deadline and before the cancellation. -/
theorem check_eq_ok_iff {ctx : Context} {now : Nat} :
    ctx.check now = .ok () ↔
      (∀ d, ctx.deadline = some d → (now : Int) < d) ∧
        ∀ c, ctx.cancelAt = some c → now < c := by
  rw [← isCancelled_eq_false_iff, ← isExpired_eq_false_iff]
  unfold check
  cases ctx.isCancelled now with
  | true => simp
  | false => cases ctx.isExpired now <;> simp

/-- There are two reasons not to start. -/
theorem check_eq_error {ctx : Context} {now : Nat} {e : Error} (h : ctx.check now = .error e) :
    e = .cancelled ∨ e = .timeout := by
  unfold check at h
  split at h
  · exact .inl (Except.error.inj h).symm
  · split at h
    · exact .inr (Except.error.inj h).symm
    · cases h

/-- A deadline is the reason not to start only if it has passed. -/
theorem check_eq_timeout {ctx : Context} {now : Nat} (h : ctx.check now = .error .timeout) :
    ∃ d, ctx.deadline = some d ∧ d ≤ (now : Int) := by
  unfold check at h
  split at h
  · cases h
  · split at h
    · next hx => exact isExpired_iff.mp hx
    · cases h

theorem waitUntil_eq_over_iff {ctx : Context} {now wake instant : Nat} :
    ctx.waitUntil now wake = .over instant ↔
      instant = wake ∧ ∀ c, ctx.cancelAt = some c → wake < c := by
  unfold waitUntil
  cases ctx.cancelAt with
  | none => simp [eq_comm]
  | some c =>
    by_cases hc : c ≤ wake
    · simp [hc]
    · have hlt : wake < c := Nat.lt_of_not_le hc
      simp [hlt, Nat.not_le.mpr hlt, eq_comm]

theorem waitUntil_eq_cancelled_iff {ctx : Context} {now wake instant : Nat} :
    ctx.waitUntil now wake = .cancelled instant ↔
      ∃ c, ctx.cancelAt = some c ∧ c ≤ wake ∧ instant = max now c := by
  unfold waitUntil
  cases ctx.cancelAt with
  | none => simp
  | some c => by_cases hc : c ≤ wake <;> simp [hc, eq_comm]

/-- An exchange is cut short by the cancellation, or ends as it would without one. -/
theorem finish_cases (ctx : Context) (now replyAt : Nat) :
    (∃ c, ctx.cancelAt = some c ∧ c ≤ (ctx.finishByDeadline replyAt).instant ∧
        ctx.finish now replyAt = .cancelled (max now c)) ∨
      ctx.finish now replyAt = ctx.finishByDeadline replyAt ∧
        ∀ c, ctx.cancelAt = some c → (ctx.finishByDeadline replyAt).instant < c := by
  unfold finish
  cases ctx.cancelAt with
  | none => simp
  | some c =>
    by_cases hc : c ≤ (ctx.finishByDeadline replyAt).instant
    · simp [hc]
    · right
      simp only [hc, if_false, Option.some.injEq, true_and]
      rintro c' rfl
      exact Nat.lt_of_not_le hc

/-- Without a cancellation, an exchange that begins before the deadline ends at it at the
latest. -/
theorem instant_finishByDeadline_le {ctx : Context} {now : Nat}
    (hd : ∀ d, ctx.deadline = some d → (now : Int) < d) (replyAt : Nat) :
    ∀ d, ctx.deadline = some d → ((ctx.finishByDeadline replyAt).instant : Int) ≤ d := by
  intro d h
  have hnow := hd d h
  simp only [finishByDeadline, h]
  split <;> simp only [Finish.instant] <;> omega

/-- An exchange that ends at the deadline has reached it. -/
theorem finish_eq_expired {ctx : Context} {now replyAt instant : Nat}
    (h : ctx.finish now replyAt = .expired instant) :
    ∃ d, ctx.deadline = some d ∧ d ≤ (instant : Int) := by
  rcases finish_cases ctx now replyAt with ⟨c, _, _, heq⟩ | ⟨heq, _⟩
  · simp [heq] at h
  · rw [heq] at h
    unfold finishByDeadline at h
    cases hd : ctx.deadline with
    | none => simp [hd] at h
    | some d =>
      simp only [hd] at h
      split at h
      · cases h
        exact ⟨d, rfl, Int.self_le_toNat d⟩
      · cases h

/-! ## §2. Bounds

  A bound that has passed before something begins under the context does not hold it: the call
  ends then as soon as it comes to look at the context. Hence the two premises on `start`. -/

/-- Whether an instant is within the bounds that a context sets to what begins at `start`. -/
structure Admits (ctx : Context) (start instant : Nat) : Prop where
  /-- It is not later than a deadline that is not before the start. -/
  deadline : ∀ d, ctx.deadline = some d → (start : Int) ≤ d → (instant : Int) ≤ d
  /-- It is not later than a cancellation that is not before the start. -/
  cancelAt : ∀ c, ctx.cancelAt = some c → start ≤ c → instant ≤ c

theorem Admits.refl (ctx : Context) (start : Nat) : ctx.Admits start start :=
  ⟨fun _ _ h => h, fun _ _ h => h⟩

theorem Admits.trans {ctx : Context} {s t u : Nat} (hst : ctx.Admits s t)
    (htu : ctx.Admits t u) : ctx.Admits s u where
  deadline d hd hs := htu.deadline d hd (hst.deadline d hd hs)
  cancelAt c hc hs := htu.cancelAt c hc (hst.cancelAt c hc hs)

/-- A wait that is begun only if it ends before the deadline, and is cut short by the
cancellation, ends within the bounds. -/
theorem admits_wait {ctx : Context} {now span instant : Nat}
    (hd : ctx.expiresWithin now span = false)
    (hw : ctx.wait now span = .over instant ∨ ctx.wait now span = .cancelled instant) :
    ctx.Admits now instant := by
  -- The wait may be cut to the longest one there is, but never gets longer.
  have hwake := Clock.wake_le now span
  have hlate := expiresWithin_eq_false_iff.mp hd
  rcases hw with hover | hcancelled
  · obtain ⟨rfl, hc⟩ := waitUntil_eq_over_iff.mp hover
    refine ⟨fun d h _ => ?_, fun c h _ => Nat.le_of_lt (hc c h)⟩
    have := hlate d h
    omega
  · obtain ⟨c, hc, hle, rfl⟩ := waitUntil_eq_cancelled_iff.mp hcancelled
    refine ⟨fun d h _ => ?_, fun c' h hs => ?_⟩
    · have := hlate d h
      omega
    · obtain rfl : c = c' := by simpa [hc] using h
      omega

/-- An exchange that may begin ends within the bounds, however it ends. -/
theorem admits_finish {ctx : Context} {now replyAt : Nat} (hok : ctx.check now = .ok ()) :
    ctx.Admits now (ctx.finish now replyAt).instant := by
  obtain ⟨hd, hc⟩ := check_eq_ok_iff.mp hok
  have hlimit := instant_finishByDeadline_le hd replyAt
  rcases finish_cases ctx now replyAt with ⟨c, h, hle, heq⟩ | ⟨heq, hlt⟩
  · have hnow := hc c h
    rw [heq]
    refine ⟨fun d h _ => ?_, fun c' h' _ => ?_⟩
    · have := hlimit d h
      simp only [Finish.instant]
      omega
    · obtain rfl : c = c' := by simpa [h] using h'
      simp only [Finish.instant]
      omega
  · rw [heq]
    exact ⟨fun d h _ => hlimit d h, fun c h _ => Nat.le_of_lt (hlt c h)⟩

end HttpPipeline.Context
