import HttpPipeline.Policy.Retry
import HttpPipeline.Proofs.Http.Headers
import HttpPipeline.Proofs.Text.Count
import HttpPipeline.Proofs.Text.Trim

/-! # The wait that a server asks for

  A response may ask for a wait in three headers, two in milliseconds and one in seconds. Which
  texts are numbers and which of the headers decides is said here without reading any of them. A
  header that is not a number is passed over, whatever else it is: it does not stand in the way of
  the headers after it. Main statement: the wait that is read off a response is the one that it
  asks for, and a header holds a number only if it was given a single value.
-/

namespace HttpPipeline

variable {r : Http.Response} {header : String} {n : Nat}

/-! ## §1. Numbers in headers -/

/-- Whether a header value is a number: a count of 64 bits between blank characters. -/
def IsNumber (value : String) (n : Nat) : Prop :=
  Text.IsCount (2 ^ 64) (Text.trim value) n

/-- Whether a response has a number in a header. -/
def Http.Response.HasNumber (r : Http.Response) (header : String) (n : Nat) : Prop :=
  ∃ value, r.header? header = some value ∧ IsNumber value n

theorem headerCount?_eq_some_iff : headerCount? r header = some n ↔ r.HasNumber header n := by
  have hsize : UInt64.size = 2 ^ 64 := rfl
  simp only [headerCount?, Option.bind_eq_some_iff, hsize, Text.countBelow?_eq_some_iff,
    Http.Response.HasNumber, IsNumber]

theorem headerCount?_eq_none_iff : headerCount? r header = none ↔ ∀ n, ¬ r.HasNumber header n := by
  rw [Option.eq_none_iff_forall_ne_some]
  exact forall_congr' fun n => not_congr headerCount?_eq_some_iff

/-- There is no comma in a number. -/
theorem IsNumber.no_comma {value : String} (h : IsNumber value n) : ',' ∉ value.toList := by
  intro hcomma
  have hkept : ',' ∈ (Text.trim value).toList := Text.mem_trim hcomma (by decide)
  rcases Text.IsCount.isDigit_or h hkept with hdigit | hplus
  · cases hdigit
  · cases hplus

/-! ## §2. Values that arrived one after another -/

/-- Values that are joined have a comma between them. -/
theorem Http.comma_mem_of_joined {first second value : String} {rest : List String}
    (h : joined (first :: second :: rest) = some value) : ',' ∈ value.toList := by
  obtain rfl := Option.some.inj h
  rw [String.intercalate_cons_cons, String.toList_append, String.toList_append]
  have hjoint : ',' ∈ HeaderMap.joint.toList := by decide
  exact List.mem_append_left _ (List.mem_append_right _ hjoint)

/-- **A header holds a number** only if it has one value, and that is the number. -/
theorem Http.Response.hasNumber_changedBy (hempty : r.headers = {})
    (changes : List HeaderChange) :
    (r.changedBy changes).HasNumber header n ↔
      ∃ value, valuesOf header changes = [value] ∧ IsNumber value n := by
  unfold HasNumber
  rw [header?_changedBy hempty]
  constructor
  · rintro ⟨value, hjoined, hnumber⟩
    -- Without a value nothing is looked up, and two of them leave a comma in what is.
    match hvalues : valuesOf header changes with
    | [] =>
      rw [hvalues] at hjoined
      cases hjoined
    | [single] =>
      rw [hvalues, joined_singleton] at hjoined
      obtain rfl := Option.some.inj hjoined
      exact ⟨single, rfl, hnumber⟩
    | first :: second :: rest =>
      rw [hvalues] at hjoined
      exact absurd (comma_mem_of_joined hjoined) hnumber.no_comma
  · rintro ⟨value, hvalues, hnumber⟩
    rw [hvalues, joined_singleton]
    exact ⟨value, rfl, hnumber⟩

/-! ## §3. Precedence -/

/-- The wait in milliseconds that a response asks for, if it asks for one. -/
inductive AsksFor (r : Http.Response) : Option Nat → Prop where
  /-- The first header in milliseconds decides, if there is a number in it. -/
  | millis {n : Nat} (h : r.HasNumber "retry-after-ms" n) : AsksFor r (some n)
  /-- Then the second one does. -/
  | otherMillis {n : Nat} (hfirst : ∀ m, ¬ r.HasNumber "retry-after-ms" m)
      (h : r.HasNumber "x-ms-retry-after-ms" n) : AsksFor r (some n)
  /-- Then the one in seconds does. -/
  | seconds {n : Nat} (hfirst : ∀ m, ¬ r.HasNumber "retry-after-ms" m)
      (hsecond : ∀ m, ¬ r.HasNumber "x-ms-retry-after-ms" m)
      (h : r.HasNumber "retry-after" n) : AsksFor r (some (n * 1000))
  /-- Without a number in any of them it asks for none. -/
  | nothing (hfirst : ∀ m, ¬ r.HasNumber "retry-after-ms" m)
      (hsecond : ∀ m, ¬ r.HasNumber "x-ms-retry-after-ms" m)
      (hthird : ∀ m, ¬ r.HasNumber "retry-after" m) : AsksFor r none

theorem retryAfter?_eq_or (r : Http.Response) :
    retryAfter? r =
      ((headerCount? r "retry-after-ms").or (headerCount? r "x-ms-retry-after-ms")).or
        ((headerCount? r "retry-after").map (· * 1000)) := by
  unfold retryAfter? retryAfterMillisNames
  rw [List.findSome?_cons, List.findSome?_cons, List.findSome?_nil]
  cases headerCount? r "retry-after-ms" with
  | some n => rfl
  | none =>
    cases headerCount? r "x-ms-retry-after-ms" with
    | some n => rfl
    | none => rfl

/-- A response asks for the wait that is read off it. -/
theorem asksFor_retryAfter? (r : Http.Response) : AsksFor r (retryAfter? r) := by
  rw [retryAfter?_eq_or]
  cases hfirst : headerCount? r "retry-after-ms" with
  | some n => exact .millis (headerCount?_eq_some_iff.mp hfirst)
  | none =>
    have hno := headerCount?_eq_none_iff.mp hfirst
    cases hsecond : headerCount? r "x-ms-retry-after-ms" with
    | some n => exact .otherMillis hno (headerCount?_eq_some_iff.mp hsecond)
    | none =>
      have hno' := headerCount?_eq_none_iff.mp hsecond
      cases hthird : headerCount? r "retry-after" with
      | some n => exact .seconds hno hno' (headerCount?_eq_some_iff.mp hthird)
      | none => exact .nothing hno hno' (headerCount?_eq_none_iff.mp hthird)

/-- It asks for no other. -/
theorem AsksFor.retryAfter?_eq {wait : Option Nat} (h : AsksFor r wait) :
    retryAfter? r = wait := by
  rw [retryAfter?_eq_or]
  cases h with
  | millis h => rw [headerCount?_eq_some_iff.mpr h]; rfl
  | otherMillis hfirst h =>
    rw [headerCount?_eq_none_iff.mpr hfirst, headerCount?_eq_some_iff.mpr h]
    rfl
  | seconds hfirst hsecond h =>
    rw [headerCount?_eq_none_iff.mpr hfirst, headerCount?_eq_none_iff.mpr hsecond,
      headerCount?_eq_some_iff.mpr h]
    rfl
  | nothing hfirst hsecond hthird =>
    rw [headerCount?_eq_none_iff.mpr hfirst, headerCount?_eq_none_iff.mpr hsecond,
      headerCount?_eq_none_iff.mpr hthird]
    rfl

/-- **The wait that a server asks for.** Whatever calls set the headers of a response, the wait
that is read off it is the one that it asks for: the number of milliseconds in the first header of
that kind with a number in it, else a thousand times the number of seconds, else none. A header
has a number in it exactly if it was left with one value, under any ASCII case of its name, and
this value is the number. -/
theorem requested_wait_by_precedence (status : Http.Status) (body : Bytes)
    (changes : List Http.HeaderChange) :
    let r := ({ status, body } : Http.Response).changedBy changes
    (∀ wait, retryAfter? r = wait ↔ AsksFor r wait) ∧
      ∀ header n, r.HasNumber header n ↔
        ∃ value, Http.valuesOf header changes = [value] ∧ IsNumber value n := by
  intro r
  refine ⟨fun wait => ⟨?_, AsksFor.retryAfter?_eq⟩, fun header n => ?_⟩
  · rintro rfl
    exact asksFor_retryAfter? r
  · exact Http.Response.hasNumber_changedBy rfl changes

/-- A number that has 65 bits, and one that arrived twice, are passed over. -/
example :
    retryAfter? (({} : Http.Response).changedBy [.set "Retry-After-MS" "18446744073709551616",
      .set "x-ms-retry-after-ms" "5", .add "X-Ms-Retry-After-Ms" "5",
      .add "RETRY-AFTER" " +007\t"]) = some 7000 := by
  decide

end HttpPipeline
