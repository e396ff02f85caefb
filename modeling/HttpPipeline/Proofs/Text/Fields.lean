import HttpPipeline.Text.Fields
import Mathlib.Data.List.Basic

/-! # Texts cut at separators

  The fields of a text that is put together from two with a separator between them are the fields
  of the one and then those of the other. Beside the cut at every separator stands the cut at the
  first one. Both are determined by where the separator is absent, which is how they are used.
-/

namespace HttpPipeline.Text

variable {sep : Char} {cs : List Char}

/-! ## §1. Every separator -/

theorem fields_of_not_mem (h : sep ∉ cs) : fields sep cs = [cs] := by
  induction cs with
  | nil => rfl
  | cons c cs ih =>
    have hc : c ≠ sep := fun heq => h (heq ▸ List.mem_cons_self)
    have hcs : sep ∉ cs := fun hmem => h (List.mem_cons_of_mem c hmem)
    rw [fields, if_neg hc, ih hcs]

/-- A separator ends one text and begins another. -/
theorem fields_append (front back : List Char) :
    fields sep (front ++ sep :: back) = fields sep front ++ fields sep back := by
  induction front with
  | nil => simp [fields]
  | cons c front ih =>
    by_cases hc : c = sep
    · simp only [List.cons_append, fields, hc, if_true, ih]
    · -- The first character joins the first field, which is one of the front.
      simp only [List.cons_append, fields, hc, if_false, ih]
      cases hfront : fields sep front with
      | nil => exact absurd hfront (fields_ne_nil sep front)
      | cons field rest => rfl

/-- The fields, joined by the separator, are the text. -/
theorem intercalate_fields (sep : Char) (cs : List Char) :
    [sep].intercalate (fields sep cs) = cs := by
  induction cs with
  | nil => rfl
  | cons c cs ih =>
    rw [fields]
    split
    case isTrue h =>
      obtain ⟨field, rest, hfields⟩ := List.exists_cons_of_ne_nil (fields_ne_nil sep cs)
      rw [hfields] at ih ⊢
      rw [List.intercalate_cons_cons, ih, h]
      rfl
    case isFalse h =>
      obtain ⟨field, rest, hfields⟩ := List.exists_cons_of_ne_nil (fields_ne_nil sep cs)
      rw [hfields] at ih ⊢
      cases rest with
      | nil =>
        rw [List.intercalate_singleton] at ih
        show [sep].intercalate [c :: field] = c :: cs
        rw [List.intercalate_singleton, ih]
      | cons next rest =>
        rw [List.intercalate_cons_cons] at ih
        show [sep].intercalate ((c :: field) :: next :: rest) = c :: cs
        rw [List.intercalate_cons_cons, List.cons_append, List.cons_append, ih]

/-- There is no separator in a field. -/
theorem not_mem_of_mem_fields {field : List Char} (h : field ∈ fields sep cs) : sep ∉ field := by
  induction cs generalizing field with
  | nil =>
    obtain rfl := List.mem_singleton.mp h
    exact List.not_mem_nil
  | cons c cs ih =>
    obtain ⟨first, rest, hfields⟩ := List.exists_cons_of_ne_nil (fields_ne_nil sep cs)
    rw [hfields] at ih
    rw [fields, hfields] at h
    split at h
    case isTrue hc =>
      rcases List.mem_cons.mp h with rfl | h
      · exact List.not_mem_nil
      · exact ih h
    case isFalse hc =>
      rcases List.mem_cons.mp h with rfl | h
      · -- The character in front of the first field is no separator.
        intro hmem
        rcases List.mem_cons.mp hmem with rfl | hmem
        · exact hc rfl
        · exact ih List.mem_cons_self hmem
      · exact ih (List.mem_cons_of_mem first h)

/-- There is one field more than there are separators. -/
theorem length_fields (sep : Char) (cs : List Char) :
    (fields sep cs).length = cs.count sep + 1 := by
  induction cs with
  | nil => rfl
  | cons c cs ih =>
    obtain ⟨field, rest, hfields⟩ := List.exists_cons_of_ne_nil (fields_ne_nil sep cs)
    rw [fields, List.count_cons]
    by_cases hc : c = sep
    · simp [hc, ih]
    · simp only [hc, if_false, beq_iff_eq, Nat.add_zero, ← ih, hfields]
      rfl

/-! ## §2. The fields as texts -/

/-- The texts between occurrences of a separator, the empty ones included. -/
def parts (sep : Char) (s : String) : List String :=
  (fields sep s.toList).map String.ofList

/-- The parts, joined by the separator, are the text. -/
theorem intercalate_parts (sep : Char) (s : String) :
    (String.singleton sep).intercalate (parts sep s) = s := by
  have hparts : (parts sep s).map String.toList = fields sep s.toList := by
    rw [parts, List.map_map]
    exact (List.map_congr_left fun _ _ => String.toList_ofList).trans (List.map_id _)
  rw [← String.toList_inj, String.toList_intercalate, hparts, String.toList_singleton]
  exact intercalate_fields sep s.toList

/-- There is no separator in a part. -/
theorem not_mem_of_mem_parts {s part : String} (h : part ∈ parts sep s) : sep ∉ part.toList := by
  obtain ⟨field, hfield, rfl⟩ := List.mem_map.mp h
  rw [String.toList_ofList]
  exact not_mem_of_mem_fields hfield

theorem parts_of_not_mem {s : String} (h : sep ∉ s.toList) : parts sep s = [s] := by
  rw [parts, fields_of_not_mem h, List.map_singleton, String.ofList_toList]

theorem parts_append (sep : Char) (a b : String) :
    parts sep (a ++ String.singleton sep ++ b) = parts sep a ++ parts sep b := by
  have hchars : (a ++ String.singleton sep ++ b).toList = a.toList ++ sep :: b.toList := by simp
  rw [parts, hchars, fields_append, List.map_append]
  rfl

/-- Texts joined by the separator have the parts of each, in order. -/
theorem parts_intercalate (sep : Char) (t : String) (texts : List String) :
    parts sep ((String.singleton sep).intercalate (t :: texts)) =
      (t :: texts).flatMap (parts sep) := by
  induction texts generalizing t with
  | nil => simp
  | cons next texts ih =>
    rw [String.intercalate_cons_cons, parts_append, ih]
    rfl

/-- Texts joined by the separator are the parts exactly if it is in none of them. -/
theorem flatMap_parts_eq_self_iff {texts : List String} :
    texts.flatMap (parts sep) = texts ↔ ∀ t ∈ texts, sep ∉ t.toList := by
  constructor
  · intro h t ht
    rw [← h] at ht
    obtain ⟨whole, _, hpart⟩ := List.mem_flatMap.mp ht
    exact not_mem_of_mem_parts hpart
  · intro h
    induction texts with
    | nil => rfl
    | cons t texts ih =>
      rw [List.flatMap_cons, parts_of_not_mem (h t List.mem_cons_self),
        ih fun u hu => h u (List.mem_cons_of_mem t hu)]
      rfl

theorem length_flatMap_parts (sep : Char) (texts : List String) :
    (texts.flatMap (parts sep)).length =
      texts.length + (texts.flatMap String.toList).count sep := by
  induction texts with
  | nil => rfl
  | cons t texts ih =>
    have hfirst : (parts sep t).length = t.toList.count sep + 1 := by
      rw [parts, List.length_map, length_fields]
    rw [List.flatMap_cons, List.length_append, hfirst, ih, List.length_cons, List.flatMap_cons,
      List.count_append]
    omega

/-! ## §3. The first separator -/

/-- The text before the first separator, and the text after it, if there is one. -/
def cut (sep : Char) : List Char → List Char × Option (List Char)
  | [] => ([], none)
  | c :: cs => if c = sep then ([], some cs) else (c :: (cut sep cs).1, (cut sep cs).2)

theorem cut_of_not_mem (h : sep ∉ cs) : cut sep cs = (cs, none) := by
  induction cs with
  | nil => rfl
  | cons c cs ih =>
    have hc : c ≠ sep := fun heq => h (heq ▸ List.mem_cons_self)
    have hcs : sep ∉ cs := fun hmem => h (List.mem_cons_of_mem c hmem)
    rw [cut, if_neg hc, ih hcs]

theorem cut_append {front : List Char} (h : sep ∉ front) (back : List Char) :
    cut sep (front ++ sep :: back) = (front, some back) := by
  induction front with
  | nil => simp [cut]
  | cons c front ih =>
    have hc : c ≠ sep := fun heq => h (heq ▸ List.mem_cons_self)
    have hfront : sep ∉ front := fun hmem => h (List.mem_cons_of_mem c hmem)
    rw [List.cons_append, cut, if_neg hc, ih hfront]

/-- What comes after a first separator does not move it. -/
theorem cut_append_of_mem (h : sep ∈ cs) (more : List Char) :
    cut sep (cs ++ more) = ((cut sep cs).1, (cut sep cs).2.map (· ++ more)) := by
  obtain ⟨front, back, rfl, hfront⟩ := List.eq_append_cons_of_mem h
  rw [List.append_assoc, List.cons_append, cut_append hfront, cut_append hfront]
  rfl

/-- There is a text after the first separator exactly if there is one. -/
theorem cut_snd_eq_none_iff : (cut sep cs).2 = none ↔ sep ∉ cs := by
  by_cases h : sep ∈ cs
  · obtain ⟨front, back, rfl, hfront⟩ := List.eq_append_cons_of_mem h
    simp [cut_append hfront]
  · simp [cut_of_not_mem h, h]

end HttpPipeline.Text
