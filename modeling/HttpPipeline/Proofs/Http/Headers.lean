import HttpPipeline.Http.Response

/-! # The values of a header

  The headers of a response are built by calls that set a header and calls that add a value to one.
  What a header holds after such calls is said without the map: it has the value that was set last,
  and those that were added since, each in the order of the calls. Main statement: what is looked up
  is these values, joined, under any ASCII case of the name, and the map never has two names that
  differ only in case.
-/

namespace HttpPipeline.Http

/-! ## §1. Calls -/

/-- A call that changes a header of a response. -/
inductive HeaderChange where
  /-- The header is set, whatever it held. -/
  | set (name value : String)
  /-- A value is added to the header. -/
  | add (name value : String)
  deriving DecidableEq, Repr

namespace HeaderChange

/-- The response after a call. -/
def effect (r : Response) : HeaderChange → Response
  | .set name value => r.withHeader name value
  | .add name value => r.appendHeader name value

/-- The values of a header after a call, if these were its values before. -/
def valuesAfter (header : String) (values : List String) : HeaderChange → List String
  | .set name value => if Text.sameIgnoringCase name header then [value] else values
  | .add name value => if Text.sameIgnoringCase name header then values ++ [value] else values

end HeaderChange

/-- The response after calls one after another. -/
def Response.changedBy (r : Response) (changes : List HeaderChange) : Response :=
  changes.foldl HeaderChange.effect r

/-- The values that a header has after calls on a response without headers. -/
def valuesOf (header : String) (changes : List HeaderChange) : List String :=
  changes.foldl (HeaderChange.valuesAfter header) []

/-- What is stored for a header with these values. -/
def joined : List String → Option String
  | [] => none
  | values => some (HeaderMap.joint.intercalate values)

@[simp] theorem joined_nil : joined [] = none := rfl

@[simp] theorem joined_singleton (value : String) : joined [value] = some value := by
  simp [joined]

/-! ## §2. What is looked up -/

/-- A value more is joined to those before it. -/
theorem joined_append_singleton (values : List String) (value : String) :
    joined (values ++ [value]) =
      some (match joined values with
        | none => value
        | some present => present ++ HeaderMap.joint ++ value) := by
  cases values with
  | nil => simp
  | cons first values =>
    have hjoin : HeaderMap.joint.intercalate (first :: values ++ [value]) =
        HeaderMap.joint.intercalate (first :: values) ++ HeaderMap.joint ++ value := by
      rw [String.intercalate_append_of_ne_nil (List.cons_ne_nil first values)
        (List.cons_ne_nil value []), String.intercalate_singleton]
    simp only [List.cons_append] at hjoin
    simp only [joined, List.cons_append, hjoin]

/-- The ASCII case of a name does not matter to what is looked up. -/
theorem Response.header?_congr (r : Response) {name other : String}
    (h : Text.sameIgnoringCase name other = true) : r.header? name = r.header? other := by
  rw [Response.header?, Response.header?, HeaderMap.get?, HeaderMap.get?,
    Text.sameIgnoringCase_iff.mp h]

/-- A call does to what is looked up what it does to the values. -/
theorem HeaderChange.header?_effect {r : Response} {header : String} {values : List String}
    (h : r.header? header = joined values) (change : HeaderChange) :
    (change.effect r).header? header = joined (change.valuesAfter header values) := by
  cases change with
  | set name value =>
    have hget : (r.withHeader name value).header? header =
        if Text.sameIgnoringCase name header then some value else r.header? header :=
      r.headers.get?_insert name value header
    rw [effect, valuesAfter, hget, h]
    split <;> simp
  | add name value =>
    have hget : (r.appendHeader name value).header? header =
        if Text.sameIgnoringCase name header then
          some (match r.header? name with
            | none => value
            | some present => present ++ HeaderMap.joint ++ value)
        else r.header? header :=
      r.headers.get?_append name value header
    rw [effect, valuesAfter, hget]
    split
    case isTrue hname =>
      rw [r.header?_congr hname, h, joined_append_singleton]
    case isFalse => exact h

/-- **What is looked up** after any calls on a response without headers is the values of the
header, joined. -/
theorem Response.header?_changedBy {r : Response} (hempty : r.headers = {})
    (changes : List HeaderChange) (header : String) :
    (r.changedBy changes).header? header = joined (valuesOf header changes) := by
  have hstart : r.header? header = joined [] := by
    rw [Response.header?, hempty, HeaderMap.get?_empty, joined_nil]
  unfold changedBy valuesOf
  -- By induction on the calls, for any values that the header has before them.
  generalize ([] : List String) = values at hstart ⊢
  clear hempty
  induction changes generalizing r values with
  | nil => exact hstart
  | cons change changes ih => exact ih _ (change.header?_effect hstart)

/-! ## §3. The last call that set it -/

namespace HeaderChange

/-- The name of the header that a call is about. -/
def name : HeaderChange → String
  | .set name _ => name
  | .add name _ => name

/-- Whether a call is about a header, which it may name in any ASCII case. -/
def concerns (header : String) (change : HeaderChange) : Bool :=
  Text.sameIgnoringCase change.name header

/-- Whether a call sets a header. -/
def sets (header : String) : HeaderChange → Bool
  | .set name _ => Text.sameIgnoringCase name header
  | .add _ _ => false

/-- The value that a call adds to a header, if it adds one. -/
def added? (header : String) : HeaderChange → Option String
  | .set _ _ => none
  | .add name value => if Text.sameIgnoringCase name header then some value else none

/-- A call that does not set a header leaves its values and may add one. -/
theorem valuesAfter_of_not_sets {header : String} {change : HeaderChange}
    (h : change.sets header = false) (values : List String) :
    change.valuesAfter header values = values ++ (change.added? header).toList := by
  cases change with
  | set name value =>
    have hname : Text.sameIgnoringCase name header = false := h
    simp [valuesAfter, added?, hname]
  | add name value =>
    rw [valuesAfter, added?]
    split <;> simp

/-- A call that is not about a header leaves its values. -/
theorem valuesAfter_of_not_concerns {header : String} {change : HeaderChange}
    (h : change.concerns header = false) (values : List String) :
    change.valuesAfter header values = values := by
  have hname : Text.sameIgnoringCase change.name header = false := h
  cases change <;> exact if_neg (ne_true_of_eq_false hname)

/-- A header has no values after a call only if it had none, and the call is not about it. -/
theorem valuesAfter_eq_nil_iff {header : String} {values : List String} {change : HeaderChange} :
    change.valuesAfter header values = [] ↔ values = [] ∧ change.concerns header = false := by
  cases hname : change.concerns header with
  | false => simp [valuesAfter_of_not_concerns hname]
  | true =>
    cases change with
    | set name value =>
      have hset : (HeaderChange.set name value).valuesAfter header values = [value] := if_pos hname
      simp [hset]
    | add name value =>
      have hadd : (HeaderChange.add name value).valuesAfter header values = values ++ [value] :=
        if_pos hname
      simp [hadd]

end HeaderChange

/-- The values that calls add to a header, in the order of the calls. -/
def addedTo (header : String) (changes : List HeaderChange) : List String :=
  changes.filterMap (HeaderChange.added? header)

/-- Calls none of which sets a header add to its values. -/
theorem foldl_valuesAfter_of_not_sets {header : String} {changes : List HeaderChange}
    (h : ∀ change ∈ changes, change.sets header = false) (values : List String) :
    changes.foldl (HeaderChange.valuesAfter header) values = values ++ addedTo header changes := by
  induction changes generalizing values with
  | nil => simp [addedTo]
  | cons change changes ih =>
    have hfirst : change.sets header = false := h change List.mem_cons_self
    have hrest : ∀ c ∈ changes, c.sets header = false :=
      fun c hc => h c (List.mem_cons_of_mem change hc)
    rw [List.foldl_cons, HeaderChange.valuesAfter_of_not_sets hfirst, ih hrest, List.append_assoc]
    congr 1
    cases hadded : change.added? header <;> simp [addedTo, hadded]

/-- A header that was never set has the values that were added. -/
theorem valuesOf_of_never_set {header : String} {changes : List HeaderChange}
    (h : ∀ change ∈ changes, change.sets header = false) :
    valuesOf header changes = addedTo header changes :=
  foldl_valuesAfter_of_not_sets h []

/-- A header that was set has the value of the last such call, and those that were added since. -/
theorem valuesOf_of_last_set {header name value : String} {before after : List HeaderChange}
    (hname : Text.sameIgnoringCase name header = true)
    (hlast : ∀ change ∈ after, change.sets header = false) :
    valuesOf header (before ++ .set name value :: after) = value :: addedTo header after := by
  have hset (values : List String) :
      (HeaderChange.set name value).valuesAfter header values = [value] := if_pos hname
  rw [valuesOf, List.foldl_append, List.foldl_cons, hset, foldl_valuesAfter_of_not_sets hlast]
  rfl

/-- Calls that are not about a header make no difference to it. -/
theorem valuesOf_filter_concerns (header : String) (changes : List HeaderChange) :
    valuesOf header (changes.filter (HeaderChange.concerns header)) = valuesOf header changes := by
  unfold valuesOf
  generalize ([] : List String) = values
  induction changes generalizing values with
  | nil => rfl
  | cons change changes ih =>
    cases hname : change.concerns header with
    | false =>
      rw [List.filter_cons_of_neg (by simp [hname]), List.foldl_cons, ih,
        HeaderChange.valuesAfter_of_not_concerns hname]
    | true => rw [List.filter_cons_of_pos hname, List.foldl_cons, List.foldl_cons, ih]

/-- A header has no values exactly if no call was about it. -/
theorem valuesOf_eq_nil_iff {header : String} {changes : List HeaderChange} :
    valuesOf header changes = [] ↔ ∀ change ∈ changes, change.concerns header = false := by
  have hall (values : List String) :
      changes.foldl (HeaderChange.valuesAfter header) values = [] ↔
        values = [] ∧ ∀ change ∈ changes, change.concerns header = false := by
    induction changes generalizing values with
    | nil => simp
    | cons change changes ih =>
      rw [List.foldl_cons, ih, HeaderChange.valuesAfter_eq_nil_iff, List.forall_mem_cons, and_assoc]
  exact (hall []).trans (and_iff_right rfl)

theorem joined_eq_none_iff {values : List String} : joined values = none ↔ values = [] := by
  cases values <;> simp [joined]

/-! ## §4. The names in the map -/

namespace HeaderMap

/-- The names under which values are stored. -/
def keys (h : HeaderMap) : List String :=
  h.entries.map Prod.fst

/-- What every map of headers keeps, from when it is empty. -/
structure WellKeyed (h : HeaderMap) : Prop where
  /-- The names are in lower case. -/
  lower : ∀ key ∈ h.keys, Text.lowerAscii key = key
  /-- No name is there twice. -/
  distinct : h.keys.Nodup

theorem wellKeyed_empty : ({} : HeaderMap).WellKeyed :=
  ⟨fun _ hkey => absurd hkey List.not_mem_nil, List.nodup_nil⟩

/-- Updating a key that is there keeps the names; one that is not comes last. -/
theorem map_fst_update (key value : String) (entries : List (String × String)) :
    (update key value entries).map Prod.fst =
      if key ∈ entries.map Prod.fst then entries.map Prod.fst
      else entries.map Prod.fst ++ [key] := by
  induction entries with
  | nil => simp [update]
  | cons entry rest ih =>
    by_cases he : entry.1 = key
    · simp [update, he]
    · have hk : ¬ key = entry.1 := fun h => he h.symm
      simp only [update, beq_iff_eq, he, if_false, List.map_cons, ih, List.mem_cons, hk, false_or]
      split <;> simp

theorem WellKeyed.insert {h : HeaderMap} (hh : h.WellKeyed) (name value : String) :
    (h.insert name value).WellKeyed := by
  have hkeys : (h.insert name value).keys =
      if Text.lowerAscii name ∈ h.keys then h.keys else h.keys ++ [Text.lowerAscii name] :=
    map_fst_update (Text.lowerAscii name) value h.entries
  by_cases hmem : Text.lowerAscii name ∈ h.keys
  · rw [if_pos hmem] at hkeys
    exact ⟨hkeys ▸ hh.lower, hkeys ▸ hh.distinct⟩
  · rw [if_neg hmem] at hkeys
    constructor
    · intro key hkey
      rw [hkeys] at hkey
      rcases List.mem_append.mp hkey with hkey | hkey
      · exact hh.lower key hkey
      · obtain rfl := List.mem_singleton.mp hkey
        exact Text.lowerAscii_lowerAscii name
    · rw [hkeys, List.nodup_append]
      refine ⟨hh.distinct, List.pairwise_singleton _ _, ?_⟩
      rintro key hkey other hother rfl
      exact hmem (List.mem_singleton.mp hother ▸ hkey)

theorem WellKeyed.append {h : HeaderMap} (hh : h.WellKeyed) (name value : String) :
    (h.append name value).WellKeyed := by
  unfold HeaderMap.append
  split <;> exact hh.insert name _

/-- No two names differ only in case. -/
theorem WellKeyed.pairwise {h : HeaderMap} (hh : h.WellKeyed) :
    h.keys.Pairwise fun a b => Text.sameIgnoringCase a b = false := by
  refine List.Pairwise.imp_of_mem (fun {a b} ha hb hne => ?_) hh.distinct
  refine eq_false_of_ne_true fun hsame => hne ?_
  rw [← hh.lower a ha, ← hh.lower b hb]
  exact Text.sameIgnoringCase_iff.mp hsame

end HeaderMap

/-- A call keeps the names in lower case and distinct. -/
theorem HeaderChange.wellKeyed_effect {r : Response} (h : r.headers.WellKeyed)
    (change : HeaderChange) : (change.effect r).headers.WellKeyed := by
  cases change with
  | set name value => exact h.insert name value
  | add name value => exact h.append name value

/-- Calls keep the names in lower case and distinct. -/
theorem Response.wellKeyed_changedBy {r : Response} (h : r.headers.WellKeyed)
    (changes : List HeaderChange) : (r.changedBy changes).headers.WellKeyed := by
  induction changes generalizing r with
  | nil => exact h
  | cons change changes ih => exact ih (change.wellKeyed_effect h)

/-- **A header holds what was added since it was last set.** Whatever calls build the headers of a
response, a header is absent exactly if no call was about it. If it was never set, it has the
values that were added; if it was, it has the value of the last call that set it and the values
that were added since; joined by a comma and a space, in the order of the calls and under any ASCII
case of the name. Calls about other headers make no difference to it. The names in the map are in
lower case, none is there twice, and no two differ only in case. -/
theorem headers_hold_values_since_last_set (status : Status) (body : Bytes)
    (changes : List HeaderChange) :
    let built (changes : List HeaderChange) := ({ status, body } : Response).changedBy changes
    (∀ header,
      ((built changes).header? header = none ↔
        ∀ change ∈ changes, Text.sameIgnoringCase change.name header = false) ∧
      ((∀ change ∈ changes, change.sets header = false) → addedTo header changes ≠ [] →
        (built changes).header? header = some (", ".intercalate (addedTo header changes))) ∧
      (∀ before name value after, changes = before ++ .set name value :: after →
        Text.sameIgnoringCase name header = true →
        (∀ change ∈ after, change.sets header = false) →
        (built changes).header? header =
          some (", ".intercalate (value :: addedTo header after))) ∧
      (built (changes.filter (HeaderChange.concerns header))).header? header =
        (built changes).header? header) ∧
    (∀ key ∈ (built changes).headers.keys, Text.lowerAscii key = key) ∧
    (built changes).headers.keys.Nodup ∧
    (built changes).headers.keys.Pairwise fun a b => Text.sameIgnoringCase a b = false := by
  intro built
  have hheld (changes : List HeaderChange) (header : String) :
      (built changes).header? header = joined (valuesOf header changes) :=
    Response.header?_changedBy rfl changes header
  have hkeys : (built changes).headers.WellKeyed :=
    Response.wellKeyed_changedBy HeaderMap.wellKeyed_empty changes
  refine ⟨fun header => ⟨?_, ?_, ?_, ?_⟩, hkeys.lower, hkeys.distinct, hkeys.pairwise⟩
  · rw [hheld, joined_eq_none_iff, valuesOf_eq_nil_iff]
    rfl
  · intro hnever hadded
    rw [hheld, valuesOf_of_never_set hnever]
    obtain ⟨value, values, hvalues⟩ := List.exists_cons_of_ne_nil hadded
    rw [hvalues]
    rfl
  · rintro before name value after rfl hname hlast
    rw [hheld, valuesOf_of_last_set hname hlast]
    rfl
  · rw [hheld, hheld, valuesOf_filter_concerns]

/-- A header that was set twice, in two cases, and got an empty value and one more since, with calls
about another header in between. -/
theorem headers_hold_values_since_last_set_of_two :
    let before : List HeaderChange := [.add "X-Id" "0", .set "x-id" "1", .add "Set-Cookie" "a=1"]
    let after : List HeaderChange := [.add "x-ID" "", .add "set-cookie" "b=2", .add "X-Id" "3"]
    let r := ({ status := 200, body := [] } : Response).changedBy
      (before ++ .set "X-ID" "2" :: after)
    (∀ change ∈ after, change.sets "x-Id" = false) ∧ r.header? "x-Id" = some "2, , 3" ∧
      r.headers.keys = ["x-id", "set-cookie"] := by
  intro before after r
  have hlast : ∀ change ∈ after, change.sets "x-Id" = false := by decide
  obtain ⟨hheaders, _⟩ :=
    headers_hold_values_since_last_set 200 [] (before ++ .set "X-ID" "2" :: after)
  obtain ⟨_, _, hset, _⟩ := hheaders "x-Id"
  have hheld := hset before "X-ID" "2" after rfl (by decide) hlast
  have hvalues : ", ".intercalate ("2" :: addedTo "x-Id" after) = "2, , 3" := by decide
  exact ⟨hlast, hheld.trans (congrArg some hvalues), by decide⟩

end HttpPipeline.Http
