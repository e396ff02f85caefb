import HttpPipeline.Proofs.Text.Fields
import HttpPipeline.Request

/-! # Where query parameters go

  A URL has three parts: what comes before the query, the query, and the fragment after it. A
  query parameter is written behind the URL, whatever its last part is. So it joins the query of a
  URL that has no fragment, and the parameters can be read back from there; in a URL with a
  fragment it joins the fragment, and no server sees it. Main statement: the parts of a URL after
  any number of query parameters were added to it, in terms of the parts before.
-/

namespace HttpPipeline

/-! ## §1. The parts of a URL -/

/-- The parts of a URL, without the characters that separate them. -/
structure UrlParts where
  /-- What comes before the query. -/
  base : String
  /-- The text after the first question mark, up to the fragment. -/
  query : Option String
  /-- The text after the first number sign. A question mark in it begins no query. -/
  fragment : Option String
  deriving DecidableEq, Repr

/-- The parts of a URL. -/
def UrlParts.ofUrl (url : String) : UrlParts :=
  let whole := Text.cut '#' url.toList
  let front := Text.cut '?' whole.1
  { base := String.ofList front.1
    query := front.2.map String.ofList
    fragment := whole.2.map String.ofList }

/-- A query parameter: its name and its value. -/
abbrev Parameter := String × String

namespace Parameter

/-- The parameter as it stands in a query. -/
def written (p : Parameter) : String :=
  p.1 ++ "=" ++ p.2

/-- The parameter that a segment of a query is, with all of it in the name if there is no equals
sign. -/
def ofSegment (segment : String) : Parameter :=
  let halves := Text.cut '=' segment.toList
  (String.ofList halves.1, String.ofList (halves.2.getD []))

/-- Whether a parameter has a name, and no character that would end it or a part of it. -/
structure IsPlain (p : Parameter) : Prop where
  /-- The name is not empty. -/
  named : p.1 ≠ ""
  /-- The name ends neither the parameter, nor itself, nor the query. -/
  name : '&' ∉ p.1.toList ∧ '=' ∉ p.1.toList ∧ '#' ∉ p.1.toList
  /-- The value ends neither the parameter nor the query. -/
  value : '&' ∉ p.2.toList ∧ '#' ∉ p.2.toList

theorem toList_written (p : Parameter) : p.written.toList = p.1.toList ++ '=' :: p.2.toList := by
  simp [written]

/-- A plain parameter is read back as it was written. -/
theorem IsPlain.ofSegment_written {p : Parameter} (h : p.IsPlain) : ofSegment p.written = p := by
  simp [ofSegment, toList_written, Text.cut_append h.name.2.1]

theorem written_ne_empty (p : Parameter) : p.written.toList ≠ [] := by
  simp [toList_written]

/-- A plain parameter is a single segment, and ends no query. -/
theorem IsPlain.not_mem_written {p : Parameter} (h : p.IsPlain) :
    '&' ∉ p.written.toList ∧ '#' ∉ p.written.toList := by
  have hname := h.name
  have hvalue := h.value
  simp [toList_written, hname, hvalue]

end Parameter

namespace UrlParts

/-- The segments of the query between ampersands, without the empty ones. -/
def segments (u : UrlParts) : List String :=
  match u.query with
  | none => []
  | some query => ((Text.fields '&' query.toList).filter fun s => !s.isEmpty).map String.ofList

/-- The parameters in the query, in order. -/
def parameters (u : UrlParts) : List Parameter :=
  u.segments.map Parameter.ofSegment

end UrlParts

/-! ## §2. One parameter -/

namespace UrlParts

variable {url : String}

/-- There is a fragment exactly if there is a number sign. -/
theorem fragment_eq_none_iff : (ofUrl url).fragment = none ↔ '#' ∉ url.toList := by
  simp [ofUrl, Text.cut_snd_eq_none_iff]

theorem ofUrl_of_query {base query : List Char} (hurl : url.toList = base ++ '?' :: query)
    (hbase : '?' ∉ base) (hfragment : '#' ∉ url.toList) :
    ofUrl url = ⟨String.ofList base, some (String.ofList query), none⟩ := by
  rw [ofUrl, Text.cut_of_not_mem hfragment, hurl, Text.cut_append hbase]
  rfl

theorem ofUrl_of_no_query (hquery : '?' ∉ url.toList) (hfragment : '#' ∉ url.toList) :
    ofUrl url = ⟨url, none, none⟩ := by
  rw [ofUrl, Text.cut_of_not_mem hfragment, Text.cut_of_not_mem hquery]
  simp

/-- What is written behind a URL with a fragment belongs to the fragment. -/
theorem ofUrl_append_of_fragment (h : '#' ∈ url.toList) (more : String) :
    ofUrl (url ++ more) =
      { ofUrl url with fragment := (ofUrl url).fragment.map (· ++ more) } := by
  rw [ofUrl, String.toList_append, Text.cut_append_of_mem h]
  simp only [ofUrl, Option.map_map]
  congr 2
  funext fragment
  simp

/-- The parameter that is behind all others in a query is its last segment. -/
theorem segments_append {p : Parameter} (hp : p.IsPlain) (base : String) (query : List Char)
    (fragment : Option String) :
    segments ⟨base, some (String.ofList (query ++ '&' :: p.written.toList)), fragment⟩ =
      segments ⟨base, some (String.ofList query), fragment⟩ ++ [p.written] := by
  have hnonempty : p.written.toList ≠ [] := p.written_ne_empty
  simp [segments, Text.fields_append, Text.fields_of_not_mem hp.not_mem_written.1, hnonempty]

theorem segments_singleton {p : Parameter} (hp : p.IsPlain) (base : String)
    (fragment : Option String) : segments ⟨base, some p.written, fragment⟩ = [p.written] := by
  have hnonempty : p.written.toList ≠ [] := p.written_ne_empty
  simp [segments, Text.fields_of_not_mem hp.not_mem_written.1, hnonempty]

/-- **A parameter joins the query** of a URL without a fragment, as its last segment, and leaves
what comes before. -/
theorem ofUrl_with_parameter {p : Parameter} (hp : p.IsPlain) (hfragment : '#' ∉ url.toList) :
    let old := ofUrl url
    let new := ofUrl (url ++ Request.separator url ++ p.written)
    new.base = old.base ∧ new.segments = old.segments ++ [p.written] ∧
      '#' ∉ (url ++ Request.separator url ++ p.written).toList := by
  intro old new
  have hwritten : '#' ∉ p.written.toList := hp.not_mem_written.2
  by_cases hquery : '?' ∈ url.toList
  · -- There is a query, and the parameter comes behind an ampersand.
    obtain ⟨base, query, hurl, hbase⟩ := List.eq_append_cons_of_mem hquery
    have hseparator : Request.separator url = "&" := if_pos hquery
    have hnew : (url ++ Request.separator url ++ p.written).toList =
        base ++ '?' :: (query ++ '&' :: p.written.toList) := by
      simp [hseparator, hurl]
    have hno : '#' ∉ (url ++ Request.separator url ++ p.written).toList := by
      simp [hseparator, hfragment, hwritten]
    have hold : old = ⟨String.ofList base, some (String.ofList query), none⟩ :=
      ofUrl_of_query hurl hbase hfragment
    have hparts : new = ⟨String.ofList base,
        some (String.ofList (query ++ '&' :: p.written.toList)), none⟩ :=
      ofUrl_of_query hnew hbase hno
    rw [hparts, hold]
    exact ⟨rfl, segments_append hp _ query none, hno⟩
  · -- There is none, and the parameter begins it behind a question mark.
    have hseparator : Request.separator url = "?" := if_neg hquery
    have hnew : (url ++ Request.separator url ++ p.written).toList =
        url.toList ++ '?' :: p.written.toList := by
      simp [hseparator]
    have hno : '#' ∉ (url ++ Request.separator url ++ p.written).toList := by
      simp [hseparator, hfragment, hwritten]
    have hold : old = ⟨url, none, none⟩ := ofUrl_of_no_query hquery hfragment
    have hparts : new = ⟨url, some p.written, none⟩ := by
      have := ofUrl_of_query hnew hquery hno
      rwa [String.ofList_toList, String.ofList_toList] at this
    rw [hparts, hold]
    exact ⟨rfl, segments_singleton hp url none, hno⟩

end UrlParts

/-! ## §3. Any number of parameters -/

namespace Request

/-- The URL with query parameters added one after another. -/
def urlWith (url : String) (ps : List Parameter) : String :=
  ps.foldl (fun url p => url ++ separator url ++ p.written) url

@[simp] theorem urlWith_nil (url : String) : urlWith url [] = url := rfl

@[simp] theorem urlWith_cons (url : String) (p : Parameter) (ps : List Parameter) :
    urlWith url (p :: ps) = urlWith (url ++ separator url ++ p.written) ps := rfl

theorem urlWith_append (url : String) (first second : List Parameter) :
    urlWith url (first ++ second) = urlWith (urlWith url first) second :=
  List.foldl_append

/-- Parameters are added behind a URL. -/
theorem exists_urlWith_eq_append (url : String) (ps : List Parameter) :
    ∃ added, urlWith url ps = url ++ added := by
  induction ps generalizing url with
  | nil => exact ⟨"", by simp⟩
  | cons p ps ih =>
    obtain ⟨added, hadded⟩ := ih (url ++ separator url ++ p.written)
    exact ⟨separator url ++ p.written ++ added, by
      rw [urlWith_cons, hadded]
      simp only [String.append_assoc]⟩

theorem setQueryParameter_written {r r' : Request} {p : Parameter}
    (h : r.setQueryParameter p.1 p.2 = .ok r') :
    r' = { r with url := r.url ++ separator r.url ++ p.written } := by
  obtain ⟨_, _, rfl⟩ := setQueryParameter_eq_ok_iff.mp h
  simp [Parameter.written, String.append_assoc]

/-- The request with query parameters added one after another, if there is room for all of
them. -/
def setQueryParameters (r : Request) (ps : List Parameter) : Except Error Request :=
  ps.foldlM (fun r p => r.setQueryParameter p.1 p.2) r

/-- To add a list of one parameter is to add that parameter. -/
@[simp] theorem setQueryParameters_singleton (r : Request) (p : Parameter) :
    r.setQueryParameters [p] = r.setQueryParameter p.1 p.2 := by
  simp [setQueryParameters]

theorem setQueryParameters_eq_ok {r r' : Request} {ps : List Parameter}
    (h : r.setQueryParameters ps = .ok r') : r' = { r with url := urlWith r.url ps } := by
  unfold setQueryParameters at h
  induction ps generalizing r with
  | nil => exact (Except.ok.inj h).symm
  | cons p ps ih =>
    rw [List.foldlM_cons] at h
    cases hfirst : r.setQueryParameter p.1 p.2 with
    | error e =>
      rw [hfirst] at h
      cases h
    | ok next =>
      rw [hfirst] at h
      rw [ih h, setQueryParameter_written hfirst, urlWith_cons]

end Request

/-- **Parameters join the query** of a URL without a fragment, in order. -/
theorem UrlParts.ofUrl_urlWith {url : String} {ps : List Parameter}
    (hps : ∀ p ∈ ps, p.IsPlain) (hfragment : '#' ∉ url.toList) :
    let old := ofUrl url
    let new := ofUrl (Request.urlWith url ps)
    new.base = old.base ∧ new.segments = old.segments ++ ps.map Parameter.written ∧
      '#' ∉ (Request.urlWith url ps).toList := by
  induction ps generalizing url with
  | nil => exact ⟨rfl, by simp, hfragment⟩
  | cons p ps ih =>
    have hp : p.IsPlain := hps p List.mem_cons_self
    have hrest : ∀ q ∈ ps, q.IsPlain := fun q hq => hps q (List.mem_cons_of_mem p hq)
    obtain ⟨hbase, hsegments, hno⟩ := ofUrl_with_parameter hp hfragment
    obtain ⟨hbase', hsegments', hno'⟩ := ih hrest hno
    refine ⟨hbase'.trans hbase, ?_, hno'⟩
    rw [Request.urlWith_cons, hsegments', hsegments, List.append_assoc]
    rfl

/-- **Where parameters land.** After query parameters were added to a request one after another,
each of them accepted, what comes before the query of its URL is the same. If the URL has no
fragment it gets none, the segments of its query are those from before and then the parameters as
they are written, and so all of them can be read back in order. If the URL has a fragment, what
is added is added to the fragment, and the query stays as it was: none of the parameters is in
it. -/
theorem parameters_join_last_part {r r' : Request} {ps : List Parameter}
    (hps : ∀ p ∈ ps, p.IsPlain) (h : r.setQueryParameters ps = .ok r') :
    let old := UrlParts.ofUrl r.url
    let new := UrlParts.ofUrl r'.url
    new.base = old.base ∧
    (old.fragment = none → new.fragment = none ∧
      new.segments = old.segments ++ ps.map Parameter.written ∧
      new.parameters = old.parameters ++ ps) ∧
    ∀ fragment, old.fragment = some fragment →
      new.query = old.query ∧ new.segments = old.segments ∧
      ∃ added, r'.url = r.url ++ added ∧ new.fragment = some (fragment ++ added) := by
  intro old new
  have hurl : r'.url = Request.urlWith r.url ps := by
    rw [Request.setQueryParameters_eq_ok h]
  by_cases hfragment : '#' ∈ r.url.toList
  · -- All that is added belongs to the fragment.
    obtain ⟨added, hadded⟩ := Request.exists_urlWith_eq_append r.url ps
    have hnew : new = { old with fragment := old.fragment.map (· ++ added) } := by
      show UrlParts.ofUrl r'.url = _
      rw [hurl, hadded]
      exact UrlParts.ofUrl_append_of_fragment hfragment added
    rw [hnew]
    refine ⟨rfl, fun hnone => absurd hfragment (UrlParts.fragment_eq_none_iff.mp hnone), ?_⟩
    intro fragment hsome
    exact ⟨rfl, rfl, added, hurl.trans hadded, by simp [hsome]⟩
  · obtain ⟨hbase, hsegments, hno⟩ := UrlParts.ofUrl_urlWith hps hfragment
    rw [← hurl] at hbase hsegments hno
    have hread : (ps.map Parameter.written).map Parameter.ofSegment = ps := by
      rw [List.map_map]
      exact (List.map_congr_left fun p hp => (hps p hp).ofSegment_written).trans (List.map_id ps)
    refine ⟨hbase, fun _ => ⟨UrlParts.fragment_eq_none_iff.mpr hno, hsegments, ?_⟩, ?_⟩
    · show new.segments.map Parameter.ofSegment = _
      rw [hsegments, List.map_append, hread]
      rfl
    · intro fragment hsome
      have hnone : old.fragment = none := UrlParts.fragment_eq_none_iff.mpr hfragment
      rw [hnone] at hsome
      cases hsome

/-- Two parameters behind a query with an empty segment, the second one with an equals sign and a
question mark in its value; and the same two behind a fragment. -/
theorem parameters_join_last_part_twice :
    let ps : List Parameter := [("api-version", "2024"), ("q", "a=b?")]
    let r (url : String) : Request := { method := .get, url, urlCapacity := 64, headerCapacity := 4 }
    (∀ p ∈ ps, p.IsPlain) ∧
      (∃ r', (r "/a?x=1&").setQueryParameters ps = .ok r' ∧
        (UrlParts.ofUrl r'.url).parameters = ("x", "1") :: ps) ∧
      ∃ r', (r "/a?x=1#top").setQueryParameters ps = .ok r' ∧
        (UrlParts.ofUrl r'.url).segments = ["x=1"] := by
  intro ps r
  have hps : ∀ p ∈ ps, p.IsPlain := by
    intro p hp
    rcases List.mem_cons.mp hp with rfl | hp
    · exact ⟨by decide, by decide, by decide⟩
    · obtain rfl := List.mem_singleton.mp hp
      exact ⟨by decide, by decide, by decide⟩
  have hjoined : (r "/a?x=1&").setQueryParameters ps =
      .ok (r "/a?x=1&&api-version=2024&q=a=b?") := by decide
  have hlost : (r "/a?x=1#top").setQueryParameters ps =
      .ok (r "/a?x=1#top&api-version=2024&q=a=b?") := by decide
  refine ⟨hps, ⟨_, hjoined, ?_⟩, ⟨_, hlost, ?_⟩⟩
  · obtain ⟨_, hquery, _⟩ := parameters_join_last_part hps hjoined
    exact (hquery (by decide)).2.2.trans (by decide)
  · obtain ⟨_, _, hbehind⟩ := parameters_join_last_part hps hlost
    exact (hbehind "top" (by decide)).2.1.trans (by decide)

/-- A parameter that is accepted need not be in the query afterwards. -/
theorem parameter_lost_in_fragment :
    let r : Request := {
      method := .get, url := "https://e.example/a#top", urlCapacity := 2048, headerCapacity := 16 }
    let p : Parameter := ("api-version", "2024")
    p.IsPlain ∧ ∃ r', r.setQueryParameter p.1 p.2 = .ok r' ∧
      r'.url = "https://e.example/a#top?api-version=2024" ∧
      (UrlParts.ofUrl r'.url).segments ≠ (UrlParts.ofUrl r.url).segments ++ [p.written] := by
  exact ⟨⟨by decide, by decide, by decide⟩, _, rfl, by decide, by decide⟩

end HttpPipeline
