import HttpPipeline.Log.Message

/-! # Shortened values

  A value that is logged is kept as it is up to a length and loses its middle beyond it. What is
  kept at both ends and what stands for the middle make up just that length, so that shortening a
  value again changes nothing, and more is always left out than is put in its place. Main statement:
  what is written for any value, with its length counted in characters.
-/

namespace HttpPipeline.Log

variable {cs : List Char}

/-! ## §1. Lengths -/

/-- A shortened value is as long as a value may be. -/
theorem lengths_fit : headLength + ellipsis.toList.length + tailLength = maxValueLength := rfl

/-- A value up to the limit is kept. -/
theorem shortenChars_of_le (h : cs.length ≤ maxValueLength) : shortenChars cs = cs :=
  if_pos h

/-- A longer value has both its ends, one after the other, and more between them than what stands
for it. -/
theorem lengths_lt (h : maxValueLength < cs.length) :
    headLength + ellipsis.toList.length + tailLength < cs.length := by
  rw [lengths_fit]
  exact h

/-! ## §2. What is kept of a longer value -/

/-- The characters of a longer value that are left out. -/
def leftOut (cs : List Char) : List Char :=
  (cs.drop headLength).take (cs.length - (headLength + tailLength))

/-- A longer value is its head, what is left out and its tail. -/
theorem eq_head_leftOut_tail (h : maxValueLength < cs.length) :
    cs = cs.take headLength ++ leftOut cs ++ cs.drop (cs.length - tailLength) := by
  -- The tail begins where what is left out ends, since the head and the tail do not overlap.
  have htail : cs.length - tailLength = headLength + (cs.length - (headLength + tailLength)) := by
    have := lengths_lt h
    omega
  rw [htail, ← List.drop_drop, List.append_assoc, leftOut, List.take_append_drop,
    List.take_append_drop]

/-- What is left out is longer than what stands for it. -/
theorem length_ellipsis_lt_leftOut (h : maxValueLength < cs.length) :
    ellipsis.toList.length < (leftOut cs).length := by
  have := lengths_lt h
  rw [leftOut, List.length_take, List.length_drop]
  omega

theorem length_head (h : maxValueLength < cs.length) :
    (cs.take headLength).length = headLength := by
  have := lengths_lt h
  rw [List.length_take]
  omega

theorem length_tail (h : maxValueLength < cs.length) :
    (cs.drop (cs.length - tailLength)).length = tailLength := by
  have := lengths_lt h
  rw [List.length_drop]
  omega

theorem shortenChars_of_lt (h : maxValueLength < cs.length) :
    shortenChars cs =
      cs.take headLength ++ ellipsis.toList ++ cs.drop (cs.length - tailLength) :=
  if_neg (Nat.not_le.mpr h)

/-- A longer value is shortened to the limit. -/
theorem length_shortenChars_of_lt (h : maxValueLength < cs.length) :
    (shortenChars cs).length = maxValueLength := by
  rw [shortenChars_of_lt h, List.length_append, List.length_append, length_head h, length_tail h]
  exact lengths_fit

/-- Only values up to the limit are kept as they are. -/
theorem shortenChars_eq_self_iff : shortenChars cs = cs ↔ cs.length ≤ maxValueLength := by
  constructor
  · intro heq
    rw [← heq]
    exact length_shortenChars_le cs
  · exact shortenChars_of_le

/-- Shortening a shortened value changes nothing. -/
theorem shortenChars_shortenChars (cs : List Char) :
    shortenChars (shortenChars cs) = shortenChars cs :=
  shortenChars_of_le (length_shortenChars_le cs)

/-! ## §3. Shortened texts -/

theorem toList_shorten (value : String) : (shorten value).toList = shortenChars value.toList :=
  String.toList_ofList

theorem length_shorten (value : String) :
    (shorten value).length = (shortenChars value.toList).length := by
  rw [← String.length_toList, toList_shorten]

/-- **Shortening keeps both ends.** No value is logged with more than 50 characters. Values up to 50
characters, and no others, are logged as they are. Of a longer one the first 23 and the last 22
characters are kept, so that 50 are logged with what stands for the others: these ends do not
overlap, 6 or more characters are between them, and what comes before the last ones is counted
without going below zero. Shortening again changes nothing. -/
theorem shortened_values_keep_both_ends (value : String) :
    (shorten value).length ≤ 50 ∧
    (shorten value = value ↔ value.length ≤ 50) ∧
    (50 < value.length → (shorten value).length = 50 ∧ tailLength ≤ value.length ∧
      ∃ head middle tail : String, value = head ++ middle ++ tail ∧
        head.length = 23 ∧ 6 ≤ middle.length ∧ tail.length = 22 ∧
        shorten value = head ++ " ... " ++ tail) ∧
    shorten (shorten value) = shorten value := by
  refine ⟨?_, ?_, ?_, ?_⟩
  · rw [length_shorten]
    exact length_shortenChars_le value.toList
  · rw [← String.toList_inj, toList_shorten, ← String.length_toList]
    exact shortenChars_eq_self_iff
  · intro hlong
    have h : maxValueLength < value.toList.length := by
      rw [String.length_toList]
      exact hlong
    refine ⟨?_, ?_, String.ofList (value.toList.take headLength),
      String.ofList (leftOut value.toList),
      String.ofList (value.toList.drop (value.toList.length - tailLength)), ?_, ?_, ?_, ?_, ?_⟩
    · rw [length_shorten]
      exact length_shortenChars_of_lt h
    · have := lengths_lt h
      rw [← String.length_toList]
      omega
    · rw [← String.ofList_append, ← String.ofList_append, ← eq_head_leftOut_tail h,
        String.ofList_toList]
    · rw [String.length_ofList]
      exact length_head h
    · rw [String.length_ofList]
      exact length_ellipsis_lt_leftOut h
    · rw [String.length_ofList]
      exact length_tail h
    · have hellipsis : " ... " = String.ofList ellipsis.toList := by rw [String.ofList_toList]; rfl
      rw [shorten, shortenChars_of_lt h, hellipsis, String.ofList_append, String.ofList_append]
  · rw [← String.toList_inj, toList_shorten, toList_shorten]
    exact shortenChars_shortenChars value.toList

/-- A value of 51 characters in 57 octets loses six of them. -/
theorem shortened_values_keep_both_ends_of_51 :
    let value := "αβγabcdefghijklmnopqrst_äöüb_ABCDEFGHIJKLMNOPQRSTUV"
    50 < value.length ∧ value.length = 51 ∧ value.utf8ByteSize = 57 ∧
      shorten value = "αβγabcdefghijklmnopqrst ... ABCDEFGHIJKLMNOPQRSTUV" ∧
      (shorten value).length = 50 ∧ shorten (shorten value) = shorten value := by
  intro value
  have hlong : 50 < value.length := by decide
  obtain ⟨_, _, hlong', hagain⟩ := shortened_values_keep_both_ends value
  exact ⟨hlong, by decide, by decide, by decide, (hlong' hlong).1, hagain⟩

end HttpPipeline.Log
