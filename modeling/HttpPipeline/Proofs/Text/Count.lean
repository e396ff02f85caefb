import HttpPipeline.Text.Numeral
import Mathlib.Data.List.Induction
import Mathlib.Data.Nat.Digits.Defs

/-! # The language of counts

  Which texts are read as counts, said without reading them: an optional plus sign and then decimal
  digits, at least one of them, that stand for a number below the bound. The digits may begin with
  zeros. What they stand for is the sum of the digits with their powers of ten.
-/

namespace HttpPipeline.Text

/-! ## §1. Digits -/

/-- What a decimal digit stands for by itself. -/
def digitValue (c : Char) : Nat :=
  c.toNat - '0'.toNat

/-- Whether characters are decimal digits that stand for a number. -/
structure IsDecimal (digits : List Char) (n : Nat) : Prop where
  /-- There is a digit. -/
  nonempty : digits ≠ []
  /-- There is nothing else. -/
  all : ∀ c ∈ digits, c.isDigit = true
  /-- The digits stand for the number, the last one for ones. -/
  value : Nat.ofDigits 10 (digits.map digitValue).reverse = n

theorem decimalValue_eq_ofDigitChars (acc : Nat) (cs : List Char) :
    decimalValue acc cs = Nat.ofDigitChars 10 cs acc := by
  induction cs generalizing acc with
  | nil => rfl
  | cons c cs ih =>
    rw [Nat.ofDigitChars_cons]
    exact ih _

/-- Reading digits from the first to the last gives what they stand for. -/
theorem decimalValue_eq_ofDigits (cs : List Char) :
    decimalValue 0 cs = Nat.ofDigits 10 (cs.map digitValue).reverse := by
  rw [decimalValue_eq_ofDigitChars]
  -- By induction from the right: the last digit stands for ones and moves the others up by ten.
  induction cs using List.reverseRecOn with
  | nil => rfl
  | append_singleton cs c ih =>
    rw [Nat.ofDigitChars_append, ih, Nat.ofDigitChars_cons, Nat.ofDigitChars_nil, List.map_append,
      List.reverse_append, List.map_singleton, List.reverse_singleton, List.singleton_append,
      Nat.ofDigits_cons, Nat.add_comm]
    rfl

theorem digits?_eq_some_iff {cs : List Char} {n : Nat} : digits? cs = some n ↔ IsDecimal cs n := by
  unfold digits?
  rw [decimalValue_eq_ofDigits]
  split
  case isTrue h =>
    obtain ⟨hnonempty, hall⟩ := Bool.and_eq_true_iff.mp h
    constructor
    · intro heq
      exact ⟨by simpa using hnonempty, by simpa using hall, Option.some.inj heq⟩
    · intro hdecimal
      exact congrArg some hdecimal.value
  case isFalse h =>
    constructor
    · intro heq
      cases heq
    · intro hdecimal
      have hnonempty := hdecimal.nonempty
      have hall := hdecimal.all
      refine absurd ?_ h
      simpa [hnonempty] using hall

/-! ## §2. Counts -/

/-- Whether a text is a count: a number below a bound, in decimal digits that may follow a plus
sign. -/
structure IsCount (bound : Nat) (s : String) (n : Nat) : Prop where
  /-- The number is below the bound. -/
  below : n < bound
  /-- The text is its digits, with or without a plus sign before them. -/
  written : ∃ digits, IsDecimal digits n ∧ (s.toList = digits ∨ s.toList = '+' :: digits)

/-- At most a plus sign is dropped. -/
theorem eq_dropPlus_or (cs : List Char) : cs = dropPlus cs ∨ cs = '+' :: dropPlus cs := by
  unfold dropPlus
  split
  · exact .inr rfl
  · exact .inl rfl

/-- Digits begin with no plus sign. -/
theorem IsDecimal.dropPlus_eq {digits : List Char} {n : Nat} (h : IsDecimal digits n) :
    dropPlus digits = digits := by
  unfold dropPlus
  split
  case h_1 cs =>
    have hplus := h.all '+' List.mem_cons_self
    cases hplus
  case h_2 => rfl

/-- **What is read as a count** is exactly the counts. -/
theorem countBelow?_eq_some_iff {bound n : Nat} {s : String} :
    countBelow? bound s = some n ↔ IsCount bound s n := by
  have hread : countBelow? bound s = some n ↔
      n < bound ∧ digits? (dropPlus s.toList) = some n := by
    unfold countBelow?
    cases digits? (dropPlus s.toList) with
    | none => simp
    | some m =>
      by_cases hm : m < bound
      · simp only [hm, if_true, Option.some.injEq]
        exact ⟨fun h => ⟨h ▸ hm, h⟩, fun h => h.2⟩
      · simp only [hm, if_false, reduceCtorEq, Option.some.injEq, false_iff]
        rintro ⟨hlt, rfl⟩
        exact hm hlt
  rw [hread, digits?_eq_some_iff]
  constructor
  · rintro ⟨hbelow, hdecimal⟩
    exact ⟨hbelow, _, hdecimal, eq_dropPlus_or s.toList⟩
  · rintro ⟨hbelow, digits, hdecimal, hs | hs⟩
    · -- The digits themselves are left as they are.
      rw [hs, hdecimal.dropPlus_eq]
      exact ⟨hbelow, hdecimal⟩
    · rw [hs]
      exact ⟨hbelow, hdecimal⟩

/-- A count is digits and at most a plus sign. -/
theorem IsCount.isDigit_or {bound n : Nat} {s : String} (h : IsCount bound s n) {c : Char}
    (hc : c ∈ s.toList) : c.isDigit = true ∨ c = '+' := by
  obtain ⟨digits, hdecimal, hs | hs⟩ := h.written
  · exact .inl (hdecimal.all c (hs ▸ hc))
  · rw [hs] at hc
    rcases List.mem_cons.mp hc with rfl | hc
    · exact .inr rfl
    · exact .inl (hdecimal.all c hc)

end HttpPipeline.Text
