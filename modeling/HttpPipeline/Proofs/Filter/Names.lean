import HttpPipeline.Log.Filter
import HttpPipeline.Proofs.Reading
import HttpPipeline.Proofs.Text.Fields
import HttpPipeline.Proofs.Text.Trim

/-! # Filters as names

  A filter is written as names between commas. Each part between two commas is read by itself: a
  blank one gives nothing, one with a name between blanks gives the classification of that name, in
  any ASCII case, and every other one is the failure of the list if it is the first. Main statement:
  lists are read as their parts one after another, so that reading respects the comma and inverts
  every way of writing a filter.
-/

namespace HttpPipeline.Log

/-! ## §1. Names -/

/-- Whether a text is the name of a classification, in any ASCII case. -/
def IsName (s : String) : Prop :=
  ∃ c : Classification, Text.sameIgnoringCase c.name s = true

namespace Classification

/-- No two names differ only in the case of ASCII letters. -/
theorem eq_of_sameIgnoringCase_name {c d : Classification}
    (h : Text.sameIgnoringCase c.name d.name = true) : c = d := by
  have hall : ∀ c ∈ all, ∀ d ∈ all, Text.sameIgnoringCase c.name d.name = true → c = d := by
    decide
  exact hall c (mem_all c) d (mem_all d) h

theorem sameIgnoringCase_of_ofName? {s : String} {c : Classification} (h : ofName? s = some c) :
    Text.sameIgnoringCase c.name s = true := by
  have hfound := List.find?_some h
  exact hfound

theorem ofName?_eq_some_iff {s : String} {c : Classification} :
    ofName? s = some c ↔ Text.sameIgnoringCase c.name s = true := by
  refine ⟨sameIgnoringCase_of_ofName?, fun h => ?_⟩
  have hfound : (ofName? s).isSome = true := List.find?_isSome.mpr ⟨c, mem_all c, h⟩
  obtain ⟨d, hd⟩ := Option.isSome_iff_exists.mp hfound
  -- What is found has the same name, and so it is the classification itself.
  have hname := Text.sameIgnoringCase_iff.mp (sameIgnoringCase_of_ofName? hd)
  obtain rfl : d = c := eq_of_sameIgnoringCase_name
    (Text.sameIgnoringCase_iff.mpr (hname.trans (Text.sameIgnoringCase_iff.mp h).symm))
  exact hd

theorem ofName?_eq_none_iff {s : String} : ofName? s = none ↔ ¬ IsName s := by
  rw [Option.eq_none_iff_forall_ne_some, IsName, not_exists]
  exact forall_congr' fun c => not_congr ofName?_eq_some_iff

/-- In a name, in any ASCII case, there is neither a blank character nor a comma. -/
theorem plain_of_mem_name {c : Classification} {word : String}
    (h : Text.sameIgnoringCase c.name word = true) :
    ∀ x ∈ word.toList, Text.isBlank x = false ∧ x ≠ ',' := by
  have hname : (Text.lowerAscii c.name).toList.all (fun x => !Text.isBlank x && x != ',') = true := by
    cases c <;> decide
  rw [Text.sameIgnoringCase_iff.mp h, Text.toList_lowerAscii, List.all_eq_true] at hname
  intro x hx
  have hlower : Text.isBlank x.toLower = false ∧ x.toLower ≠ ',' := by
    simpa using hname x.toLower (List.mem_map_of_mem hx)
  refine ⟨(Text.isBlank_toLower x).symm.trans hlower.1, ?_⟩
  rintro rfl
  exact hlower.2 rfl

theorem name_ne_empty {c : Classification} {word : String}
    (h : Text.sameIgnoringCase c.name word = true) : word ≠ "" := by
  rintro rfl
  cases c <;> exact absurd h (by decide)

end Classification

/-! ## §2. Parts -/

namespace Filter

/-- The parts of a text between its commas, as they are written. -/
def commaParts (s : String) : List String :=
  (Text.fields ',' s.toList).map String.ofList

/-- The parts, joined by commas, are the text. -/
theorem intercalate_commaParts (s : String) : ",".intercalate (commaParts s) = s :=
  Text.intercalate_parts ',' s

/-- There is no comma in a part. -/
theorem no_comma_of_mem_commaParts {s part : String} (h : part ∈ commaParts s) :
    ',' ∉ part.toList :=
  Text.not_mem_of_mem_parts h

theorem commaParts_of_no_comma {s : String} (h : ',' ∉ s.toList) : commaParts s = [s] :=
  Text.parts_of_not_mem h

theorem commaParts_append (a b : String) :
    commaParts (a ++ "," ++ b) = commaParts a ++ commaParts b :=
  Text.parts_append ',' a b

/-- Reads one part: nothing, if it is blank, and a classification otherwise. -/
def readPart (part : String) : Except UnknownClassification (List Classification) :=
  if Text.isBlankText part then .ok []
  else (Classification.parse (Text.trim part)).map ([·])

/-- Whether a part is neither blank nor a name between blanks. -/
structure IsUnknownPart (part : String) : Prop where
  /-- It is not blank. -/
  written : Text.isBlankText part = false
  /-- What is left of it is not a name. -/
  unknown : ¬ IsName (Text.trim part)

theorem readPart_of_blank {part : String} (h : Text.isBlankText part = true) :
    readPart part = .ok [] :=
  if_pos h

theorem readPart_of_name {part : String} {c : Classification}
    (h : Text.sameIgnoringCase c.name (Text.trim part) = true) : readPart part = .ok [c] := by
  have hwritten : ¬ Text.isBlankText part = true := by
    rw [← Text.trim_eq_empty_iff]
    exact Classification.name_ne_empty h
  rw [readPart, if_neg hwritten, Classification.parse,
    Text.trim_of_isTrimmed (Text.isTrimmed_trim part), Classification.ofName?_eq_some_iff.mpr h]
  rfl

theorem readPart_of_unknown {part : String} (h : IsUnknownPart part) :
    readPart part = .error ⟨Text.trim part⟩ := by
  have hwritten : ¬ Text.isBlankText part = true := by simp [h.written]
  rw [readPart, if_neg hwritten, Classification.parse,
    Text.trim_of_isTrimmed (Text.isTrimmed_trim part),
    Classification.ofName?_eq_none_iff.mpr h.unknown]
  rfl

/-- **A part is read, or it is unknown.** -/
theorem readPart_cases (part : String) :
    (¬ IsUnknownPart part ∧ ∃ cs, readPart part = .ok cs) ∨
      (IsUnknownPart part ∧ readPart part = .error ⟨Text.trim part⟩) := by
  cases hblank : Text.isBlankText part with
  | true =>
    refine .inl ⟨fun h => ?_, [], readPart_of_blank hblank⟩
    cases hblank.symm.trans h.written
  | false =>
    by_cases hname : IsName (Text.trim part)
    · obtain ⟨c, hc⟩ := hname
      exact .inl ⟨fun h => h.unknown ⟨c, hc⟩, [c], readPart_of_name hc⟩
    · have hunknown : IsUnknownPart part := ⟨hblank, hname⟩
      exact .inr ⟨hunknown, readPart_of_unknown hunknown⟩

theorem readPart_eq_error_iff {part : String} {e : UnknownClassification} :
    readPart part = .error e ↔ IsUnknownPart part ∧ e = ⟨Text.trim part⟩ := by
  rcases readPart_cases part with ⟨hknown, cs, hread⟩ | ⟨hunknown, hread⟩
  · rw [hread]
    exact ⟨nofun, fun h => absurd h.1 hknown⟩
  · rw [hread]
    exact ⟨fun h => ⟨hunknown, (Except.error.inj h).symm⟩, fun h => congrArg _ h.2.symm⟩

theorem exists_readPart_eq_ok_iff {part : String} :
    (∃ cs, readPart part = .ok cs) ↔ ¬ IsUnknownPart part := by
  rcases readPart_cases part with ⟨hknown, cs, hread⟩ | ⟨hunknown, hread⟩
  · exact ⟨fun _ => hknown, fun _ => ⟨cs, hread⟩⟩
  · rw [hread]
    exact ⟨nofun, fun h => absurd hunknown h⟩

/-! ## §3. Lists -/

/-- To leave out the blank parts before reading is to read nothing of them. -/
theorem mapM_parse_eq (texts : List String) :
    ((texts.filter fun t => !Text.isBlankText t).map Text.trim).mapM Classification.parse =
      (texts.mapM readPart).map List.flatten := by
  -- A blank text is dropped on the one side; on the other it is read, as an empty list.
  induction texts with
  | nil => rfl
  | cons t texts ih =>
    rw [List.mapM_cons]
    cases hblank : Text.isBlankText t with
    | true =>
      rw [List.filter_cons_of_neg (by simp [hblank]), ih, readPart_of_blank hblank]
      cases texts.mapM readPart with
      | error e => rfl
      | ok lists => rfl
    | false =>
      rw [List.filter_cons_of_pos (by simp [hblank]), List.map_cons, List.mapM_cons, ih, readPart,
        if_neg (by simp [hblank])]
      cases Classification.parse (Text.trim t) with
      | error e => rfl
      | ok c =>
        cases texts.mapM readPart with
        | error e => rfl
        | ok lists => rfl

theorem parts_eq (s : String) :
    parts s = ((commaParts s).filter fun t => !Text.isBlankText t).map Text.trim := by
  have htrim (field : List Char) :
      String.ofList (Text.trimChars field) = Text.trim (String.ofList field) := by
    rw [Text.trim, String.toList_ofList]
  have hblank (field : List Char) :
      (Text.trimChars field).isEmpty = Text.isBlankText (String.ofList field) := by
    rw [Bool.eq_iff_iff, ← Text.trim_eq_empty_iff, ← htrim]
    simp
  -- Trimmed fields are kept if they are not empty, and those are the parts that are not blank.
  have hkept : (Text.fields ',' s.toList).filter ((fun field => !field.isEmpty) ∘ Text.trimChars) =
      (Text.fields ',' s.toList).filter ((fun t => !Text.isBlankText t) ∘ String.ofList) :=
    List.filter_congr fun field _ => congrArg not (hblank field)
  rw [parts, commaParts, List.filter_map, List.filter_map, List.map_map, List.map_map, hkept]
  exact List.map_congr_left fun field _ => htrim field

/-- **A list is read part by part.** -/
theorem parse_eq (s : String) :
    parse s = ((commaParts s).mapM readPart).map fun lists => ⟨lists.flatten⟩ := by
  have hread : parse s = ((parts s).mapM Classification.parse).map Filter.mk := rfl
  rw [hread, parts_eq, mapM_parse_eq]
  cases (commaParts s).mapM readPart with
  | error e => rfl
  | ok lists => rfl

/-- Two readings one after the other: the entries of both, or the first failure. -/
def followedBy :
    Except UnknownClassification Filter → Except UnknownClassification Filter →
      Except UnknownClassification Filter
  | .error e, _ => .error e
  | .ok _, .error e => .error e
  | .ok f, .ok g => .ok ⟨f.entries ++ g.entries⟩

/-- **Reading respects the comma.** -/
theorem parse_append (a b : String) : parse (a ++ "," ++ b) = followedBy (parse a) (parse b) := by
  rw [parse_eq, parse_eq a, parse_eq b, commaParts_append, List.mapM_append]
  cases (commaParts a).mapM readPart with
  | error e => rfl
  | ok front =>
    cases (commaParts b).mapM readPart with
    | error e => rfl
    | ok back =>
      show Except.ok (Filter.mk (front ++ back).flatten) =
        .ok ⟨front.flatten ++ back.flatten⟩
      rw [List.flatten_append]

theorem parse_of_no_comma {s : String} (h : ',' ∉ s.toList) :
    parse s = (readPart s).map Filter.mk := by
  rw [parse_eq, commaParts_of_no_comma h, List.mapM_cons]
  cases readPart s with
  | error e => rfl
  | ok cs =>
    show Except.ok (Filter.mk (cs ++ [])) = .ok ⟨cs⟩
    rw [List.append_nil]

/-! ## §4. Ways of writing -/

/-- Whether texts spell classifications: each in a text of its own, by its name in any ASCII case
and between blank characters, and with blank texts anywhere. -/
inductive Spells : List String → List Classification → Prop where
  /-- No text spells no classification. -/
  | nil : Spells [] []
  /-- A blank text spells nothing. -/
  | blank {t : String} {texts : List String} {cs : List Classification}
      (ht : Text.isBlankText t = true) (h : Spells texts cs) : Spells (t :: texts) cs
  /-- A name between blanks spells its classification. -/
  | name {front word back : String} {c : Classification} {texts : List String}
      {cs : List Classification} (hfront : Text.isBlankText front = true)
      (hword : Text.sameIgnoringCase c.name word = true) (hback : Text.isBlankText back = true)
      (h : Spells texts cs) : Spells ((front ++ word ++ back) :: texts) (c :: cs)

/-- There is no comma among blank characters. -/
theorem no_comma_of_blank {t : String} (h : Text.isBlankText t = true) : ',' ∉ t.toList := by
  intro hcomma
  have hblank : Text.isBlank ',' = true := List.all_eq_true.mp h ',' hcomma
  exact absurd hblank (by decide)

theorem parse_blank {t : String} (h : Text.isBlankText t = true) : parse t = .ok ⟨[]⟩ := by
  rw [parse_of_no_comma (no_comma_of_blank h), readPart_of_blank h]
  rfl

theorem parse_name {front word back : String} {c : Classification}
    (hfront : Text.isBlankText front = true)
    (hword : Text.sameIgnoringCase c.name word = true)
    (hback : Text.isBlankText back = true) : parse (front ++ word ++ back) = .ok ⟨[c]⟩ := by
  have hplain := Classification.plain_of_mem_name hword
  have htrimmed : Text.IsTrimmed word :=
    Text.isTrimmed_of_no_blank fun x hx => (hplain x hx).1
  -- The text is one part, since neither the blanks nor the name bring a comma.
  have hcomma : ',' ∉ (front ++ word ++ back).toList := by
    rw [String.toList_append, String.toList_append, List.mem_append, List.mem_append]
    rintro ((hmem | hmem) | hmem)
    · exact no_comma_of_blank hfront hmem
    · exact (hplain ',' hmem).2 rfl
    · exact no_comma_of_blank hback hmem
  have hread : readPart (front ++ word ++ back) = .ok [c] := by
    refine readPart_of_name ?_
    rwa [Text.trim_blanks_around htrimmed hfront hback]
  rw [parse_of_no_comma hcomma, hread]
  rfl

/-- A text in front of others is read before them. -/
theorem parse_intercalate_cons (t : String) (texts : List String) :
    parse (",".intercalate (t :: texts)) = followedBy (parse t) (parse (",".intercalate texts)) := by
  cases texts with
  | nil =>
    have hempty : parse (",".intercalate []) = .ok ⟨[]⟩ := parse_blank (by decide)
    -- There is no comma behind a last text, and what would follow one is blank.
    rw [hempty, String.intercalate_singleton]
    cases parse t with
    | error e => rfl
    | ok f =>
      show Except.ok f = .ok ⟨f.entries ++ []⟩
      rw [List.append_nil]
  | cons next texts => rw [String.intercalate_cons_cons, parse_append]

/-- **Every way of writing** a list of classifications is read back as that list. -/
theorem Spells.parse_eq {texts : List String} {cs : List Classification} (h : Spells texts cs) :
    parse (",".intercalate texts) = .ok ⟨cs⟩ := by
  -- By induction on how the texts spell; joined by commas, each is read before the others.
  induction h with
  | nil => exact parse_blank (by decide)
  | blank ht _ ih =>
    rw [parse_intercalate_cons, parse_blank ht, ih]
    rfl
  | name hfront hword hback _ ih =>
    rw [parse_intercalate_cons, parse_name hfront hword hback, ih]
    rfl

/-! ## §5. Failures -/

theorem parse_eq_error_iff_mapM {s : String} {e : UnknownClassification} :
    parse s = .error e ↔ (commaParts s).mapM readPart = .error e := by
  rw [parse_eq]
  cases (commaParts s).mapM readPart with
  | error e' =>
    constructor
    · intro h
      exact congrArg _ (Except.error.inj h)
    · intro h
      exact congrArg _ (Except.error.inj h)
  | ok lists => exact ⟨nofun, nofun⟩

/-- **The first unknown part** is the failure of a list. -/
theorem parse_eq_error_iff {s : String} {e : UnknownClassification} :
    parse s = .error e ↔
      ∃ front part back, commaParts s = front ++ part :: back ∧
        (∀ t ∈ front, ¬ IsUnknownPart t) ∧ IsUnknownPart part ∧ e = ⟨Text.trim part⟩ := by
  rw [parse_eq_error_iff_mapM, mapM_eq_error_iff]
  simp only [exists_readPart_eq_ok_iff, readPart_eq_error_iff]

theorem exists_parse_eq_error_iff {s : String} :
    (∃ e, parse s = .error e) ↔ ∃ part ∈ commaParts s, IsUnknownPart part := by
  simp only [parse_eq_error_iff_mapM, exists_mapM_eq_error_iff, readPart_eq_error_iff,
    exists_and_left, exists_eq, and_true]

/-- **Lists of names are read part by part.** A text with a comma between two others is read as the
one and then the other: its entries are those of both, and its failure is that of the first, or
else that of the second. Whatever texts spell classifications, they are read back, joined by
commas, as these classifications, in order and with repetitions. The parts of a text are what is
between its commas. It fails exactly if one of them is neither blank nor a name between blanks, in
any ASCII case, and the first such part is what the failure names, without the blanks around
it. -/
theorem names_read_part_by_part :
    (∀ a b, parse (a ++ "," ++ b) = followedBy (parse a) (parse b)) ∧
    (∀ texts cs, Spells texts cs → parse (",".intercalate texts) = .ok ⟨cs⟩) ∧
    ∀ s,
      (",".intercalate (commaParts s) = s ∧ ∀ part ∈ commaParts s, ',' ∉ part.toList) ∧
      ((∃ e, parse s = .error e) ↔ ∃ part ∈ commaParts s, IsUnknownPart part) ∧
      ∀ e, parse s = .error e ↔
        ∃ front part back, commaParts s = front ++ part :: back ∧
          (∀ t ∈ front, ¬ IsUnknownPart t) ∧ IsUnknownPart part ∧ e = ⟨Text.trim part⟩ := by
  refine ⟨parse_append, fun texts cs h => h.parse_eq, fun s => ⟨⟨?_, ?_⟩, ?_, ?_⟩⟩
  · exact intercalate_commaParts s
  · exact fun part hpart => no_comma_of_mem_commaParts hpart
  · exact exists_parse_eq_error_iff
  · exact fun e => parse_eq_error_iff

/-- Two names in mixed case, the second one twice, between blanks of several kinds and with blank
texts before, between and after them. -/
theorem names_read_part_by_part_in_any_case :
    let texts := ["", " " ++ "HTTP.Retry" ++ "\t", "\u00A0", "" ++ "iot.SAS_token" ++ "",
      "\u3000" ++ "Iot.Sas_Token" ++ " ", ""]
    let cs : List Classification := [.httpRetry, .iotSasToken, .iotSasToken]
    Spells texts cs ∧ parse (",".intercalate texts) = .ok ⟨cs⟩ := by
  intro texts cs
  have hspells : Spells texts cs := by
    refine .blank (by decide) (.name (by decide) (by decide) (by decide) ?_)
    refine .blank (by decide) (.name (by decide) (by decide) (by decide) ?_)
    exact .name (by decide) (by decide) (by decide) (.blank (by decide) .nil)
  exact ⟨hspells, names_read_part_by_part.2.1 texts cs hspells⟩

end Filter

end HttpPipeline.Log
