import HttpPipeline.Log.Filter
import HttpPipeline.Proofs.Reading

/-! # Filters as codes

  A filter is written as the codes of its entries and the code that ends a list. Codes are read
  strictly or on trust, in two ways that agree: both read the codes before the first end of list,
  and both stop at the first of them that no classification has. The one reports it, for the other
  it is a fault. Main statement: both read back what is written, and both fail on the same code.
-/

namespace HttpPipeline.Log

/-! ## §1. Known codes -/

/-- Whether a classification has a code. -/
def IsKnownCode (n : Int) : Prop :=
  ∃ c : Classification, c.code = n

theorem isSome_ofCode?_iff {n : Int} :
    (Classification.ofCode? n).isSome = true ↔ IsKnownCode n := by
  rw [Option.isSome_iff_exists]
  constructor
  · rintro ⟨c, hc⟩
    exact ⟨c, Classification.code_of_ofCode? hc⟩
  · rintro ⟨c, rfl⟩
    exact ⟨c, Classification.ofCode?_code c⟩

theorem ofCode?_eq_none_iff {n : Int} : Classification.ofCode? n = none ↔ ¬ IsKnownCode n := by
  rw [← isSome_ofCode?_iff, Option.not_isSome_iff_eq_none]

instance (n : Int) : Decidable (IsKnownCode n) :=
  decidable_of_iff _ isSome_ofCode?_iff

/-- Codes that are known are the codes of classifications. -/
theorem exists_map_code {codes : List Int} (h : ∀ n ∈ codes, IsKnownCode n) :
    ∃ entries : List Classification, entries.map Classification.code = codes := by
  induction codes with
  | nil => exact ⟨[], rfl⟩
  | cons n codes ih =>
    obtain ⟨c, rfl⟩ := h n List.mem_cons_self
    obtain ⟨entries, rfl⟩ := ih fun m hm => h m (List.mem_cons_of_mem _ hm)
    exact ⟨c :: entries, rfl⟩

namespace Filter

/-! ## §2. Reading one code -/

/-- Reads one code that the caller vouches for. -/
def trustedCode (n : Int) : Except UntrustedCode Classification :=
  match Classification.ofCode? n with
  | some c => .ok c
  | none => .error ⟨n⟩

theorem ofCode_code (c : Classification) : Classification.ofCode c.code = .ok c := by
  rw [Classification.ofCode, Classification.ofCode?_code]

theorem trustedCode_code (c : Classification) : trustedCode c.code = .ok c := by
  rw [trustedCode, Classification.ofCode?_code]

theorem ofCode_of_unknown {n : Int} (h : ¬ IsKnownCode n) :
    Classification.ofCode n = .error ⟨toString n⟩ := by
  rw [Classification.ofCode, ofCode?_eq_none_iff.mpr h]

theorem trustedCode_of_unknown {n : Int} (h : ¬ IsKnownCode n) : trustedCode n = .error ⟨n⟩ := by
  rw [trustedCode, ofCode?_eq_none_iff.mpr h]

/-! ## §3. Reading a list -/

/-- The codes of a list: those before the first end of list, if there is one in it. -/
def listedCodes (codes : List Int) : List Int :=
  codes.takeWhile (· != Classification.endOfList)

/-- A list ends where the end of list is, whatever follows. -/
theorem listedCodes_endOfList_cons (rest : List Int) :
    listedCodes (Classification.endOfList :: rest) = [] := rfl

theorem listedCodes_cons_of_ne {n : Int} (h : n ≠ Classification.endOfList) (codes : List Int) :
    listedCodes (n :: codes) = n :: listedCodes codes :=
  List.takeWhile_cons_of_pos (by simpa using h)

/-- What follows the first end of list does not matter. -/
theorem listedCodes_append_endOfList (front rest : List Int) :
    listedCodes (front ++ Classification.endOfList :: rest) = listedCodes front := by
  induction front with
  | nil => exact listedCodes_endOfList_cons rest
  | cons n front ih =>
    by_cases h : n = Classification.endOfList
    · -- The list ends in the front part already.
      subst h
      rw [List.cons_append, listedCodes_endOfList_cons, listedCodes_endOfList_cons]
    · rw [List.cons_append, listedCodes_cons_of_ne h, listedCodes_cons_of_ne h, ih]

/-- The end of list is not among the codes of classifications. -/
theorem listedCodes_map_code (entries : List Classification) :
    listedCodes (entries.map Classification.code) = entries.map Classification.code := by
  induction entries with
  | nil => rfl
  | cons c entries ih => rw [List.map_cons, listedCodes_cons_of_ne c.code_ne_endOfList, ih]

theorem listedCodes_toCodes (f : Filter) :
    listedCodes f.toCodes = f.entries.map Classification.code := by
  rw [toCodes, listedCodes_append_endOfList, listedCodes_map_code]

theorem ofCodes_eq (codes : List Int) :
    ofCodes codes = ((listedCodes codes).mapM Classification.ofCode).map Filter.mk := rfl

/-- On trust, too, the listed codes are read one after another. -/
theorem trustedEntries_eq (codes : List Int) :
    trustedEntries codes = (listedCodes codes).mapM trustedCode := by
  induction codes with
  | nil => rfl
  | cons n codes ih =>
    rw [trustedEntries]
    split
    case isTrue h =>
      subst h
      rw [listedCodes_endOfList_cons, List.mapM_nil]
      rfl
    case isFalse h =>
      -- The code is listed, and it is known or the failure on both sides.
      rw [listedCodes_cons_of_ne h, List.mapM_cons, ih, trustedCode]
      cases Classification.ofCode? n with
      | none => rfl
      | some c => rfl

theorem ofTrustedCodes_eq (codes : List Int) :
    ofTrustedCodes codes = ((listedCodes codes).mapM trustedCode).map Filter.mk := by
  rw [ofTrustedCodes, trustedEntries_eq]

/-- Both readers read back the codes of classifications. -/
theorem read_of_listedCodes_eq {codes : List Int} {entries : List Classification}
    (h : listedCodes codes = entries.map Classification.code) :
    ofCodes codes = .ok ⟨entries⟩ ∧ ofTrustedCodes codes = .ok ⟨entries⟩ := by
  rw [ofCodes_eq, ofTrustedCodes_eq, h, mapM_map_of_read ofCode_code,
    mapM_map_of_read trustedCode_code]
  exact ⟨rfl, rfl⟩

/-- Both readers fail on the first code that is not known. -/
theorem fail_of_listedCodes_eq {codes front back : List Int} {n : Int}
    (h : listedCodes codes = front ++ n :: back) (hfront : ∀ m ∈ front, IsKnownCode m)
    (hn : ¬ IsKnownCode n) :
    ofCodes codes = .error ⟨toString n⟩ ∧ ofTrustedCodes codes = .error ⟨n⟩ := by
  have hstrict : (listedCodes codes).mapM Classification.ofCode = .error ⟨toString n⟩ := by
    refine mapM_eq_error_iff.mpr ⟨front, n, back, h, fun m hm => ?_, ofCode_of_unknown hn⟩
    obtain ⟨c, rfl⟩ := hfront m hm
    exact ⟨c, ofCode_code c⟩
  have htrusted : (listedCodes codes).mapM trustedCode = .error ⟨n⟩ := by
    refine mapM_eq_error_iff.mpr ⟨front, n, back, h, fun m hm => ?_, trustedCode_of_unknown hn⟩
    obtain ⟨c, rfl⟩ := hfront m hm
    exact ⟨c, trustedCode_code c⟩
  rw [ofCodes_eq, ofTrustedCodes_eq, hstrict, htrusted]
  exact ⟨rfl, rfl⟩

/-- A list with a code that is not known has a first one. -/
theorem exists_first_unknown {codes : List Int} (h : ∃ n ∈ codes, ¬ IsKnownCode n) :
    ∃ front n back, codes = front ++ n :: back ∧ (∀ m ∈ front, IsKnownCode m) ∧
      ¬ IsKnownCode n := by
  have hfound : (codes.find? fun n => ¬ IsKnownCode n).isSome := by
    rw [List.find?_isSome]
    simpa using h
  obtain ⟨n, hn⟩ := Option.isSome_iff_exists.mp hfound
  obtain ⟨hunknown, front, back, rfl, hfront⟩ := List.find?_eq_some_iff_append.mp hn
  exact ⟨front, n, back, rfl, by simpa using hfront, by simpa using hunknown⟩

/-- **Codes are read strictly or on trust alike.** If each code before the first end of list is
known, both readers give the filter whose entries have these codes, in order and with repetitions,
and it is written as these codes and an end of list. If one is not known, the first such code is
the one that the strict reader names in decimal, and the one on which the other breaks off. What
follows the first end of list does not matter to either. Every filter is read back from its
codes. -/
theorem codes_read_alike :
    (∀ codes, (∀ n ∈ listedCodes codes, IsKnownCode n) →
      ∃ f, ofCodes codes = .ok f ∧ ofTrustedCodes codes = .ok f ∧
        f.entries.map Classification.code = listedCodes codes ∧
        f.toCodes = listedCodes codes ++ [Classification.endOfList]) ∧
    (∀ codes, (∃ n ∈ listedCodes codes, ¬ IsKnownCode n) →
      ∃ front n back, listedCodes codes = front ++ n :: back ∧ (∀ m ∈ front, IsKnownCode m) ∧
        ¬ IsKnownCode n ∧
        ofCodes codes = .error ⟨toString n⟩ ∧ ofTrustedCodes codes = .error ⟨n⟩) ∧
    (∀ front rest,
      ofCodes (front ++ Classification.endOfList :: rest) = ofCodes front ∧
        ofTrustedCodes (front ++ Classification.endOfList :: rest) = ofTrustedCodes front) ∧
    ∀ f : Filter, ofTrustedCodes f.toCodes = .ok f ∧ ofCodes f.toCodes = .ok f := by
  refine ⟨fun codes hknown => ?_, fun codes hunknown => ?_, fun front rest => ?_, fun f => ?_⟩
  · obtain ⟨entries, hentries⟩ := exists_map_code hknown
    obtain ⟨hstrict, htrusted⟩ := read_of_listedCodes_eq hentries.symm
    refine ⟨⟨entries⟩, hstrict, htrusted, hentries, ?_⟩
    rw [toCodes, hentries]
  · obtain ⟨front, n, back, hcodes, hfront, hn⟩ := exists_first_unknown hunknown
    obtain ⟨hstrict, htrusted⟩ := fail_of_listedCodes_eq hcodes hfront hn
    exact ⟨front, n, back, hcodes, hfront, hn, hstrict, htrusted⟩
  · rw [ofCodes_eq, ofCodes_eq, ofTrustedCodes_eq, ofTrustedCodes_eq,
      listedCodes_append_endOfList]
    exact ⟨rfl, rfl⟩
  · obtain ⟨hstrict, htrusted⟩ := read_of_listedCodes_eq f.listedCodes_toCodes
    exact ⟨htrusted, hstrict⟩

/-- A code twice before an end of list; and a negative code before another that is not known. -/
theorem codes_read_alike_up_to_end :
    let known : List Int := [0x10001, 0x40002, 0x10001, 0, -7]
    let unknown : List Int := [0x10003, -7, 99, 0]
    ((∀ n ∈ listedCodes known, IsKnownCode n) ∧
      ∃ f, ofCodes known = .ok f ∧ ofTrustedCodes known = .ok f ∧
        f.toCodes = [0x10001, 0x40002, 0x10001, 0]) ∧
    (∃ n ∈ listedCodes unknown, ¬ IsKnownCode n) ∧
      ofCodes unknown = .error ⟨"-7"⟩ ∧ ofTrustedCodes unknown = .error ⟨-7⟩ := by
  intro known unknown
  obtain ⟨hread, hfail, _, _⟩ := codes_read_alike
  have hknown : ∀ n ∈ listedCodes known, IsKnownCode n := by decide
  have hunknown : ∃ n ∈ listedCodes unknown, ¬ IsKnownCode n := by decide
  have hbroken : ofTrustedCodes unknown = .error ⟨-7⟩ := rfl
  obtain ⟨f, hstrict, htrusted, _, hcodes⟩ := hread known hknown
  obtain ⟨front, n, back, _, _, _, hstrict', htrusted'⟩ := hfail unknown hunknown
  -- The code is the one on which the trusting reader breaks off.
  obtain rfl : n = -7 := UntrustedCode.mk.inj (Except.error.inj (htrusted'.symm.trans hbroken))
  exact ⟨⟨hknown, f, hstrict, htrusted, hcodes⟩, hunknown, hstrict', hbroken⟩

end Filter

end HttpPipeline.Log
