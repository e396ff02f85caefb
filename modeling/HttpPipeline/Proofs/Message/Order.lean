import HttpPipeline.Log.Message
import HttpPipeline.Proofs.Http.Headers
import HttpPipeline.Proofs.Text.Octets
import Mathlib.Data.List.Nodup

/-! # The order of a response message

  The headers of a response are a map, whose entries come in no particular order. The message about
  a response sorts them by name, and since no name is there twice this leaves no choice. Main
  statement: the message is the same for every order in which the map can be enumerated, with its
  headers in the order of the octets of their names, and the message about the request at its end.
-/

namespace HttpPipeline.Http

/-! ## §1. Enumerations of a map -/

/-- Whether entries enumerate a map from names to values, in some order. -/
structure Enumerates (entries : List (String × String)) (headers : String → Option String) :
    Prop where
  /-- No name comes twice. -/
  distinct : (entries.map Prod.fst).Nodup
  /-- What comes is what is in the map. -/
  mem_iff : ∀ name value, (name, value) ∈ entries ↔ headers name = some value

namespace Enumerates

variable {entries other : List (String × String)} {headers : String → Option String}

/-- Two enumerations of a map differ in their order only. -/
theorem perm (h : Enumerates entries headers) (hother : Enumerates other headers) :
    entries.Perm other := by
  refine (List.perm_ext_iff_of_nodup (List.Nodup.of_map Prod.fst h.distinct)
    (List.Nodup.of_map Prod.fst hother.distinct)).mpr ?_
  exact fun entry => (h.mem_iff entry.1 entry.2).trans (hother.mem_iff entry.1 entry.2).symm

/-- An enumeration in another order is one. -/
theorem of_perm (h : Enumerates entries headers) (hperm : other.Perm entries) :
    Enumerates other headers where
  distinct := ((hperm.map Prod.fst).nodup_iff).mpr h.distinct
  mem_iff name value := hperm.mem_iff.trans (h.mem_iff name value)

end Enumerates

/-- The entries enumerate what is stored, if no name is there twice. -/
theorem HeaderMap.enumerates_getKey? {h : HeaderMap} (hdistinct : h.keys.Nodup) :
    Enumerates h.entries h.getKey? := by
  refine ⟨hdistinct, fun name value => ?_⟩
  obtain ⟨entries⟩ := h
  show (name, value) ∈ entries ↔
    (entries.find? fun entry => entry.1 == name).map Prod.snd = some value
  replace hdistinct : (entries.map Prod.fst).Nodup := hdistinct
  induction entries with
  | nil => simp
  | cons entry rest ih =>
    obtain ⟨hnew, hrest⟩ := List.nodup_cons.mp hdistinct
    by_cases hname : entry.1 = name
    · -- The name is that of the first entry and of no other.
      have hnot : (name, value) ∉ rest := fun hmem =>
        hnew (hname ▸ List.mem_map_of_mem hmem)
      rw [List.find?_cons_of_pos (by simpa using hname), List.mem_cons, or_iff_left hnot]
      constructor
      · rintro rfl
        rfl
      · intro hvalue
        exact Prod.ext hname.symm (Option.some.inj hvalue).symm
    · have hne : ¬ (name, value) = entry := fun heq => hname (heq ▸ rfl)
      rw [List.find?_cons_of_neg (by simpa using hname), List.mem_cons, or_iff_right hne]
      exact ih hrest

end HttpPipeline.Http

namespace HttpPipeline.Log

/-! ## §2. Sorted headers -/

/-- Sorting neither drops nor brings a header. -/
theorem sortedHeaders_perm (h : Http.HeaderMap) : (sortedHeaders h).Perm h.entries :=
  List.mergeSort_perm _ _

/-- Sorted headers are in the order of their names. -/
theorem pairwise_le_sortedHeaders (h : Http.HeaderMap) :
    (sortedHeaders h).Pairwise fun a b => a.1 ≤ b.1 := by
  have htrans (a b c : String × String) (hab : decide (a.1 ≤ b.1) = true)
      (hbc : decide (b.1 ≤ c.1) = true) : decide (a.1 ≤ c.1) = true :=
    decide_eq_true (String.le_trans (of_decide_eq_true hab) (of_decide_eq_true hbc))
  have htotal (a b : String × String) : (decide (a.1 ≤ b.1) || decide (b.1 ≤ a.1)) = true := by
    simpa using String.le_total a.1 b.1
  exact (List.pairwise_mergeSort htrans htotal h.entries).imp of_decide_eq_true

/-- Sorted headers ascend in the octets of their names, if no name is there twice. -/
theorem pairwise_encode_lt_sortedHeaders {h : Http.HeaderMap} (hdistinct : h.keys.Nodup) :
    (sortedHeaders h).Pairwise fun a b => Utf8.encode a.1 < Utf8.encode b.1 := by
  have hnames : (sortedHeaders h).Pairwise fun a b => a.1 ≠ b.1 :=
    List.pairwise_map.mp (((sortedHeaders_perm h).map Prod.fst).nodup_iff.mpr hdistinct)
  refine (hnames.and (pairwise_le_sortedHeaders h)).imp fun {a b} hab => ?_
  exact Utf8.encode_lt_encode_iff.mpr (lt_of_le_of_ne hab.2 hab.1)

/-- The order of the entries does not matter to sorting, if no name is there twice. -/
theorem sortedHeaders_eq_of_perm {h other : Http.HeaderMap} (hdistinct : h.keys.Nodup)
    (hperm : other.entries.Perm h.entries) : sortedHeaders other = sortedHeaders h := by
  have hother : other.keys.Nodup := (hperm.map Prod.fst).nodup_iff.mpr hdistinct
  have hboth : (sortedHeaders other).Perm (sortedHeaders h) :=
    (sortedHeaders_perm other).trans (hperm.trans (sortedHeaders_perm h).symm)
  -- Both are in strictly ascending order, which no two entries are both ways.
  exact hboth.eq_of_pairwise (fun _ _ _ _ hab hba => absurd hba (List.lt_asymm hab))
    (pairwise_encode_lt_sortedHeaders hother) (pairwise_encode_lt_sortedHeaders hdistinct)

/-! ## §3. The message -/

/-- **A response message does not depend on the order of the map.** Whatever headers a response has,
there is an enumeration of them, in strictly ascending order of the octets of their names, so that
the message is the line about the response, a line for each header of this enumeration with its
value shortened or, if it is a secret, redacted, and the message about the request. It is the same
message for every other order in which the headers are stored. -/
theorem response_message_independent_of_order {r : Http.Response}
    {headers : String → Option String} (h : Http.Enumerates r.headers.entries headers)
    (elapsed : Nat) (request : Request) :
    (∃ sorted, Http.Enumerates sorted headers ∧
      (sorted.Pairwise fun a b => Utf8.encode a.1 < Utf8.encode b.1) ∧
      responseMessage r elapsed request =
        "HTTP Response (" ++ toString elapsed ++ "ms) : " ++ toString r.status ++ " "
          ++ r.reasonPhrase
          ++ String.join (sorted.map fun header => "\n\t" ++ header.1 ++ " : "
            ++ if isSensitive header.1 then "REDACTED" else shorten header.2)
          ++ "\n\n -> " ++ requestMessage request) ∧
    ∀ entries, Http.Enumerates entries headers →
      responseMessage { r with headers := ⟨entries⟩ } elapsed request =
        responseMessage r elapsed request := by
  refine ⟨⟨sortedHeaders r.headers, h.of_perm (sortedHeaders_perm r.headers),
    pairwise_encode_lt_sortedHeaders h.distinct, rfl⟩, fun entries hentries => ?_⟩
  have hsorted : sortedHeaders ⟨entries⟩ = sortedHeaders r.headers :=
    sortedHeaders_eq_of_perm h.distinct (hentries.perm h)
  unfold responseMessage
  rw [hsorted]
  rfl

/-- Headers that arrived in two orders: one of them a secret, one twice, one with a value too long
for a line and one with a name that is no ASCII text. The message is the same text for both. -/
theorem response_message_independent_of_order_of_arrival :
    let built (changes : List Http.HeaderChange) :=
      ({ status := 201, body := [] } : Http.Response).changedBy changes
    let note := "a value that is longer than a line: its middle is left out"
    let r := built [.add "é" "1", .set "X-Id" "a", .add "X-Note" note, .add "Set-Cookie" "s=1",
      .add "x-id" "b"]
    let other := built [.add "set-cookie" "s=1", .add "x-ID" "a", .add "é" "1", .add "X-ID" "b",
      .set "x-note" note]
    let request : Request := {
      method := .get, url := "https://e.example/", urlCapacity := 64, headerCapacity := 4 }
    Http.Enumerates r.headers.entries r.headers.getKey? ∧
      Http.Enumerates other.headers.entries r.headers.getKey? ∧ other.headers ≠ r.headers ∧
      responseMessage other 12 request = responseMessage r 12 request ∧
      responseMessage r 12 request =
        "HTTP Response (12ms) : 201 Created"
          ++ "\n\tset-cookie : REDACTED"
          ++ "\n\tx-id : a, b"
          ++ "\n\tx-note : a value that is longer  ... its middle is left out"
          ++ "\n\té : 1"
          ++ "\n\n -> HTTP Request : GET https://e.example/" := by
  intro built note r other request
  have hstored : Http.Enumerates r.headers.entries r.headers.getKey? :=
    Http.HeaderMap.enumerates_getKey? (by decide)
  have hother : Http.Enumerates other.headers.entries r.headers.getKey? :=
    hstored.of_perm (by decide)
  obtain ⟨⟨sorted, henumerates, hascending, hmessage⟩, hsame⟩ :=
    response_message_independent_of_order hstored 12 request
  refine ⟨hstored, hother, by decide, hsame other.headers.entries hother, ?_⟩
  -- There is one list of these headers whose names ascend, whatever sorting does.
  have hlisted : Http.Enumerates
      [("set-cookie", "s=1"), ("x-id", "a, b"), ("x-note", note), ("é", "1")]
      r.headers.getKey? := hstored.of_perm (by decide)
  have hsorted := (henumerates.perm hlisted).eq_of_pairwise
    (fun _ _ _ _ hab hba => absurd hba (List.lt_asymm hab)) hascending (by decide +kernel)
  rw [hmessage, hsorted]
  decide +kernel

end HttpPipeline.Log
