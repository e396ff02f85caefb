import HttpPipeline.Text.Blank
import Mathlib.Data.List.Basic
import Mathlib.Data.List.TakeWhile

/-! # What is left of a trimmed text

  Trimming leaves a text with no blank character at either end, and leaves nothing of a text only
  if all of its characters are blank.
-/

namespace HttpPipeline.Text

/-! ## §1. Both ends -/

/-- Whether a text neither begins nor ends with a blank character. -/
structure IsTrimmed (s : String) : Prop where
  /-- It does not begin with one. -/
  head : ∀ c, s.toList.head? = some c → isBlank c = false
  /-- It does not end with one. -/
  last : ∀ c, s.toList.getLast? = some c → isBlank c = false

theorem isTrimmed_of_no_blank {s : String} (h : ∀ c ∈ s.toList, isBlank c = false) :
    IsTrimmed s where
  head c hc := h c (List.mem_of_head? hc)
  last c hc := h c (List.mem_of_getLast? hc)

/-- What is left when characters are dropped from the front does not begin with one of them. -/
theorem eq_false_of_head?_dropWhile {p : Char → Bool} {l : List Char} {c : Char}
    (h : (l.dropWhile p).head? = some c) : p c = false := by
  have hnot := List.head?_dropWhile_not p l
  rw [h] at hnot
  simpa using hnot

/-- Nothing is dropped from the front of a text that does not begin with such a character. -/
theorem dropWhile_eq_self_of_head? {p : Char → Bool} {l : List Char}
    (h : ∀ c, l.head? = some c → p c = false) : l.dropWhile p = l := by
  cases l with
  | nil => rfl
  | cons c l => exact List.dropWhile_cons_of_neg (by simp [h c rfl])

/-- Nothing is left of a text exactly if it has no character that is not blank. -/
theorem trim_eq_empty_iff {s : String} : trim s = "" ↔ isBlankText s = true := by
  have hempty : trim s = "" ↔ trimChars s.toList = [] := by
    rw [← String.toList_inj, toList_trim, String.toList_empty]
  rw [hempty, trimChars, List.reverse_eq_nil_iff, List.dropWhile_eq_nil_iff, isBlankText,
    List.all_eq_true]
  refine ⟨fun hrest => ?_, fun hall c hc => hall c ?_⟩
  · -- What is left at the front begins with a character that is not blank, so nothing is left.
    have hnil : s.toList.dropWhile isBlank = [] := by
      refine List.head?_eq_none_iff.mp (Option.eq_none_iff_forall_ne_some.mpr fun c hc => ?_)
      have hblank := hrest c (List.mem_reverse.mpr (List.mem_of_mem_head? hc))
      rw [eq_false_of_head?_dropWhile hc] at hblank
      cases hblank
    exact List.dropWhile_eq_nil_iff.mp hnil
  · exact (List.dropWhile_sublist isBlank).mem (List.mem_reverse.mp hc)

theorem isTrimmed_trim (s : String) : IsTrimmed (trim s) where
  head c h := by
    rw [toList_trim, trimChars, List.head?_reverse] at h
    -- Dropping at the end leaves the first character, unless nothing is left.
    obtain ⟨dropped, hdropped⟩ :=
      List.dropWhile_suffix isBlank (l := (s.toList.dropWhile isBlank).reverse)
    refine eq_false_of_head?_dropWhile (l := s.toList) ?_
    rw [← List.getLast?_reverse, ← hdropped, List.getLast?_append, h]
    rfl
  last c h := by
    rw [toList_trim, trimChars, List.getLast?_reverse] at h
    exact eq_false_of_head?_dropWhile h

/-- What trimming takes away is blank characters at the two ends. -/
theorem exists_blanks_around_trim (s : String) :
    ∃ front back, s = front ++ trim s ++ back ∧ isBlankText front = true ∧
      isBlankText back = true := by
  have hblank (l : List Char) :
      isBlankText (String.ofList (l.takeWhile isBlank)) = true := by
    rw [isBlankText, String.toList_ofList, List.all_eq_true]
    exact fun c hc => List.mem_takeWhile_imp hc
  let rest := s.toList.dropWhile isBlank
  refine ⟨String.ofList (s.toList.takeWhile isBlank),
    String.ofList (rest.reverse.takeWhile isBlank).reverse, ?_, hblank _, ?_⟩
  · -- What is left at the front is, read from its end, blank characters and the trimmed text.
    have hrest : rest = trimChars s.toList ++ (rest.reverse.takeWhile isBlank).reverse := by
      rw [trimChars, ← List.reverse_append, List.takeWhile_append_dropWhile, List.reverse_reverse]
    rw [← String.toList_inj, String.toList_append, String.toList_append, toList_trim,
      String.toList_ofList, String.toList_ofList, List.append_assoc, ← hrest]
    exact (List.takeWhile_append_dropWhile).symm
  · have hback := hblank rest.reverse
    rw [isBlankText, String.toList_ofList] at hback
    rw [isBlankText, String.toList_ofList, List.all_reverse, hback]

/-- Blank characters around a text that neither begins nor ends with one are what trimming takes
away. -/
theorem trim_blanks_around {front s back : String} (hs : IsTrimmed s)
    (hfront : isBlankText front = true) (hback : isBlankText back = true) :
    trim (front ++ s ++ back) = s := by
  have hf : ∀ c ∈ front.toList, isBlank c = true := List.all_eq_true.mp hfront
  have hb : ∀ c ∈ back.toList, isBlank c = true := List.all_eq_true.mp hback
  rw [← String.toList_inj, toList_trim, trimChars, String.toList_append, String.toList_append,
    List.append_assoc, List.dropWhile_append_of_pos hf]
  by_cases hempty : s.toList = []
  · rw [hempty, List.nil_append, List.dropWhile_eq_nil_iff.mpr hb]
    rfl
  · -- The blanks behind are dropped from the reversed text, which then begins with its last one.
    have hkept : (s.toList ++ back.toList).dropWhile isBlank = s.toList ++ back.toList := by
      refine dropWhile_eq_self_of_head? fun c hc => hs.head c ?_
      rwa [List.head?_append_of_ne_nil _ hempty] at hc
    have hkept' : s.toList.reverse.dropWhile isBlank = s.toList.reverse := by
      refine dropWhile_eq_self_of_head? fun c hc => hs.last c ?_
      rwa [List.head?_reverse] at hc
    have hb' : ∀ c ∈ back.toList.reverse, isBlank c = true :=
      fun c hc => hb c (List.mem_reverse.mp hc)
    rw [hkept, List.reverse_append, List.dropWhile_append_of_pos hb', hkept', List.reverse_reverse]

theorem trim_of_isTrimmed {s : String} (h : IsTrimmed s) : trim s = s := by
  have hnone : isBlankText "" = true := by decide
  have htrim := trim_blanks_around h hnone hnone
  rwa [String.empty_append, String.append_empty] at htrim

/-- Trimming keeps every character that is not blank. -/
theorem mem_trim {s : String} {c : Char} (hc : c ∈ s.toList) (hblank : isBlank c = false) :
    c ∈ (trim s).toList := by
  have hout {t : String} (ht : isBlankText t = true) : c ∉ t.toList := by
    intro hmem
    rw [List.all_eq_true.mp ht c hmem] at hblank
    cases hblank
  obtain ⟨front, back, hs, hfront, hback⟩ := exists_blanks_around_trim s
  rw [hs, String.toList_append, String.toList_append] at hc
  rcases List.mem_append.mp hc with hc | hc
  · rcases List.mem_append.mp hc with hc | hc
    · exact absurd hc (hout hfront)
    · exact hc
  · exact absurd hc (hout hback)

/-! ## §2. Letter case -/

theorem isBlank_eq_false_of_lt {c : Char} (hlow : 0x20 < c.toNat) (hhigh : c.toNat < 0x85) :
    isBlank c = false := by
  simp [isBlank, blankRanges]
  omega

/-- A character is as blank in lower case as it is. -/
theorem isBlank_toLower (c : Char) : isBlank c.toLower = isBlank c := by
  unfold Char.toLower
  split
  case isTrue h =>
    -- Neither a letter nor the one that is 32 places after it is blank.
    have hfirst : 65 ≤ c.val.toNat := UInt32.le_iff_toNat_le.mp h.1
    have hlast : c.val.toNat ≤ 90 := UInt32.le_iff_toNat_le.mp h.2
    have hplaces : ('a'.val - 'A'.val).toNat = 32 := rfl
    have hlower : (c.val + ('a'.val - 'A'.val)).toNat = c.val.toNat + 32 := by
      rw [UInt32.toNat_add, hplaces]
      omega
    have hletter : isBlank c = false := isBlank_eq_false_of_lt
      (show 32 < c.val.toNat by omega) (show c.val.toNat < 133 by omega)
    rw [hletter]
    exact isBlank_eq_false_of_lt
      (show 32 < (c.val + ('a'.val - 'A'.val)).toNat by omega)
      (show (c.val + ('a'.val - 'A'.val)).toNat < 133 by omega)
  case isFalse => rfl

end HttpPipeline.Text
