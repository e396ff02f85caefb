import HttpPipeline.Proofs.Text.Trim
import HttpPipeline.Request

/-! # The changes of a request

  A request is made empty and then changed, in any order and with some changes refused. `Effect`
  says what one change does; what every request keeps is an invariant of it, and what stands
  before the mark is left alone by every change but the one that sets the mark. Main statement:
  over any changes, a request keeps to its room, and going back to the mark gives exactly the
  headers that there were when it was set last.
-/

namespace HttpPipeline.Request

/-! ## §1. Changes -/

/-- A way to change a request. -/
inductive Change where
  /-- A header is added. -/
  | header (name value : String)
  /-- A query parameter is added. -/
  | parameter (name value : String)
  /-- The content is replaced. -/
  | body (content : Bytes)
  /-- The mark is set. -/
  | mark
  /-- The headers after the mark are taken away. -/
  | drop
  deriving DecidableEq

/-- What a change makes of a request, unless it is refused. -/
def Change.result (r : Request) : Change → Except Error Request
  | .header name value => r.appendHeader name value
  | .parameter name value => r.setQueryParameter name value
  | .body content => .ok (r.withBody content)
  | .mark => .ok r.markHeaders
  | .drop => .ok r.dropMarkedHeaders

/-- The request after a change. One that is refused leaves it as it is. -/
def changed (r : Request) (change : Change) : Request :=
  match change.result r with
  | .ok r' => r'
  | .error _ => r

/-- The request after some changes, one after another. -/
def changedBy (r : Request) (changes : List Change) : Request :=
  changes.foldl changed r

@[simp] theorem changedBy_nil (r : Request) : r.changedBy [] = r := rfl

@[simp] theorem changedBy_cons (r : Request) (change : Change) (changes : List Change) :
    r.changedBy (change :: changes) = (r.changed change).changedBy changes := rfl

theorem changedBy_append (r : Request) (first second : List Change) :
    r.changedBy (first ++ second) = (r.changedBy first).changedBy second :=
  List.foldl_append

/-- What a change does to a request. -/
inductive Effect (r : Request) : Change → Request → Prop where
  /-- It is refused. -/
  | refused {change : Change} : Effect r change r
  /-- There is room for a header, and its name is not blank. -/
  | header {name value : String} (hname : Text.trim name ≠ "")
      (hroom : r.headers.length < r.headerCapacity) :
      Effect r (.header name value) { r with headers := r.headers ++ [(Text.trim name, value)] }
  /-- There is room for a query parameter. -/
  | parameter {name value : String}
      (hroom : sizeWithParameter r.url name value ≤ r.urlCapacity) :
      Effect r (.parameter name value)
        { r with url := r.url ++ separator r.url ++ name ++ "=" ++ value }
  /-- The content is another. -/
  | body {content : Bytes} : Effect r (.body content) { r with body := content }
  /-- The mark is behind the last header. -/
  | mark : Effect r .mark { r with mark := r.headers.length }
  /-- The headers before the mark are left. -/
  | drop : Effect r .drop { r with headers := r.headers.take r.mark }

theorem effect_changed (r : Request) (change : Change) :
    Effect r change (r.changed change) := by
  unfold changed
  cases hresult : change.result r with
  | error e => exact .refused
  | ok r' =>
    cases change with
    | header name value =>
      obtain ⟨hname, hroom, rfl⟩ := appendHeader_eq_ok_iff.mp hresult
      exact .header hname hroom
    | parameter name value =>
      obtain ⟨_, hroom, rfl⟩ := setQueryParameter_eq_ok_iff.mp hresult
      exact .parameter hroom
    | body content =>
      obtain rfl := Except.ok.inj hresult
      exact .body
    | mark =>
      obtain rfl := Except.ok.inj hresult
      exact .mark
    | drop =>
      obtain rfl := Except.ok.inj hresult
      exact .drop

/-! ## §2. Room -/

/-- A separator is one octet. -/
theorem utf8ByteSize_separator (url : String) : (separator url).utf8ByteSize = 1 := by
  unfold separator
  split <;> rfl

/-- The size that is asked for before a query parameter is added is that of the URL after it. -/
theorem utf8ByteSize_with_parameter (url name value : String) :
    (url ++ separator url ++ name ++ "=" ++ value).utf8ByteSize =
      sizeWithParameter url name value := by
  have heq : ("=" : String).utf8ByteSize = 1 := rfl
  simp only [String.utf8ByteSize_append, utf8ByteSize_separator, heq, sizeWithParameter]

/-- What every request keeps, from when it is made. -/
structure Sound (r : Request) : Prop where
  /-- The URL has its room. -/
  url : r.url.utf8ByteSize ≤ r.urlCapacity
  /-- The headers have their room. -/
  headers : r.headers.length ≤ r.headerCapacity
  /-- The mark is not behind the last header. -/
  mark : r.mark ≤ r.headers.length
  /-- No header has a blank name, or one with blanks around it. -/
  names : ∀ header ∈ r.headers, header.1 ≠ "" ∧ Text.IsTrimmed header.1

/-- A request that was just made is sound, and has no headers. -/
theorem sound_of_withCapacity {method : Http.Method} {url : String}
    {urlCapacity headerCapacity : Nat} {r : Request}
    (h : withCapacity method url urlCapacity headerCapacity = .ok r) :
    r.Sound ∧ r.headers = [] := by
  unfold withCapacity at h
  split at h
  · cases h
  · next hsize =>
    obtain rfl := Except.ok.inj h
    exact ⟨⟨Nat.le_of_not_lt hsize, Nat.zero_le _, Nat.le_refl _, fun _ hmem => nomatch hmem⟩,
      rfl⟩

/-- A change keeps a request sound, whatever it does. -/
theorem Sound.effect {r r' : Request} {change : Change} (h : r.Sound)
    (he : Effect r change r') : r'.Sound := by
  cases he with
  | refused => exact h
  | @header name value hname hroom =>
    refine { h with headers := ?_, mark := ?_, names := ?_ }
    · simpa using Nat.succ_le_of_lt hroom
    · have := h.mark
      simp only [List.length_append]
      omega
    · intro header hmem
      rcases List.mem_append.mp hmem with hmem | hmem
      · exact h.names header hmem
      · obtain rfl := List.mem_singleton.mp hmem
        exact ⟨hname, Text.isTrimmed_trim name⟩
  | @parameter name value hroom =>
    rw [← utf8ByteSize_with_parameter] at hroom
    exact { h with url := hroom }
  | body => exact { h with }
  | mark => exact { h with mark := Nat.le_refl _ }
  | drop =>
    refine { h with headers := ?_, mark := ?_, names := ?_ }
    · exact Nat.le_trans (List.length_take_le' _ _) h.headers
    · rw [List.length_take]
      exact Nat.le_min.mpr ⟨Nat.le_refl _, h.mark⟩
    · exact fun header hmem => h.names header (List.mem_of_mem_take hmem)

/-- Changes keep a request sound. -/
theorem Sound.changedBy {r : Request} (h : r.Sound) (changes : List Change) :
    (r.changedBy changes).Sound := by
  induction changes generalizing r with
  | nil => exact h
  | cons change changes ih => exact ih (h.effect (r.effect_changed change))

/-- A change leaves the room for the URL and the headers as it is. -/
theorem capacities_effect {r r' : Request} {change : Change} (he : Effect r change r') :
    r'.urlCapacity = r.urlCapacity ∧ r'.headerCapacity = r.headerCapacity := by
  cases he <;> exact ⟨rfl, rfl⟩

theorem capacities_changedBy (r : Request) (changes : List Change) :
    (r.changedBy changes).urlCapacity = r.urlCapacity ∧
      (r.changedBy changes).headerCapacity = r.headerCapacity := by
  induction changes generalizing r with
  | nil => exact ⟨rfl, rfl⟩
  | cons change changes ih =>
    obtain ⟨hurl, hheaders⟩ := capacities_effect (r.effect_changed change)
    obtain ⟨hurl', hheaders'⟩ := ih (r.changed change)
    exact ⟨hurl'.trans hurl, hheaders'.trans hheaders⟩

/-! ## §3. The mark -/

/-- A change that does not set the mark leaves the headers before it alone. -/
theorem take_mark_effect {r r' : Request} {change : Change} (h : r.mark ≤ r.headers.length)
    (he : Effect r change r') (hmark : change ≠ .mark) :
    r'.headers.take r'.mark = r.headers.take r.mark := by
  cases he with
  | refused => rfl
  | header _ _ => exact List.take_append_of_le_length h
  | parameter _ => rfl
  | body => rfl
  | mark => exact absurd rfl hmark
  | drop => simp [List.take_take]

/-- Changes that do not set the mark leave the headers before it alone. -/
theorem take_mark_changedBy {r : Request} (h : r.Sound) {changes : List Change}
    (hmark : .mark ∉ changes) :
    (r.changedBy changes).headers.take (r.changedBy changes).mark = r.headers.take r.mark := by
  -- By induction on the changes. The mark has to stay within the headers, which is part of
  -- soundness.
  induction changes generalizing r with
  | nil => rfl
  | cons change changes ih =>
    have hfirst : change ≠ .mark := fun heq => hmark (heq ▸ List.mem_cons_self)
    have hrest : .mark ∉ changes := fun hmem => hmark (List.mem_cons_of_mem _ hmem)
    have heffect := r.effect_changed change
    rw [changedBy_cons, ih (h.effect heffect) hrest]
    exact take_mark_effect h.mark heffect hfirst

/-- **A request keeps to its room, and goes back exactly to its mark.** Over any changes to a
request that was just made, refused ones included, the URL and the headers stay within the room
they were given, the mark stays within the headers, and no header gets a name that is blank or
has blanks around it. Taking away the headers after the mark gives the headers that there were
when the mark was set last, none if it never was, changes nothing else, and nothing at all when
it is done again. -/
theorem changes_keep_room_and_mark {r₀ : Request}
    (hnew : (∃ method url, Request.new method url = .ok r₀) ∨
      ∃ method url urlCapacity headerCapacity,
        withCapacity method url urlCapacity headerCapacity = .ok r₀)
    (changes : List Change) :
    let r := r₀.changedBy changes
    r.url.utf8ByteSize ≤ r.urlCapacity ∧ r.urlCapacity = r₀.urlCapacity ∧
      r.headers.length ≤ r.headerCapacity ∧ r.headerCapacity = r₀.headerCapacity ∧
      r.mark ≤ r.headers.length ∧
      (∀ header ∈ r.headers, header.1 ≠ "" ∧ Text.IsTrimmed header.1) ∧
      (.mark ∉ changes → r.dropMarkedHeaders = { r with headers := [] }) ∧
      (∀ before after, changes = before ++ .mark :: after → .mark ∉ after →
        r.dropMarkedHeaders = { r with headers := (r₀.changedBy before).headers }) ∧
      r.dropMarkedHeaders.dropMarkedHeaders = r.dropMarkedHeaders := by
  obtain ⟨hsound, hempty⟩ : r₀.Sound ∧ r₀.headers = [] := by
    have hmade : ∃ method url urlCapacity headerCapacity,
        withCapacity method url urlCapacity headerCapacity = .ok r₀ := by
      rcases hnew with ⟨method, url, h⟩ | h
      · exact ⟨method, url, _, _, h⟩
      · exact h
    obtain ⟨method, url, urlCapacity, headerCapacity, h⟩ := hmade
    exact sound_of_withCapacity h
  intro r
  have hr : r.Sound := hsound.changedBy changes
  obtain ⟨hurl, hheaders⟩ := r₀.capacities_changedBy changes
  refine ⟨hr.url, hurl, hr.headers, hheaders, hr.mark, hr.names, ?_, ?_, ?_⟩
  · intro hnever
    have hkept := take_mark_changedBy hsound hnever
    rw [hempty, List.take_nil] at hkept
    exact congrArg (fun headers => { r with headers }) hkept
  · rintro before after rfl hlast
    -- The mark is set behind the headers of that moment, and stays there.
    have hbefore : (r₀.changedBy before).Sound := hsound.changedBy before
    have hmarked : (r₀.changedBy before).markHeaders.Sound := hbefore.effect .mark
    have hkept := take_mark_changedBy hmarked hlast
    have hr : r = (r₀.changedBy before).markHeaders.changedBy after :=
      r₀.changedBy_append before (.mark :: after)
    rw [← hr, headers_markHeaders, mark_markHeaders, List.take_length] at hkept
    exact congrArg (fun headers => { r with headers }) hkept
  · exact r.dropMarkedHeaders_idem

/-- A third header and a second parameter are refused, and of the headers after the mark none is
left. -/
theorem changes_keep_room_and_mark_when_full :
    ∃ r₀, withCapacity .put "/ä" 9 2 = .ok r₀ ∧
      let before : List Change := [.header " x-a " "1"]
      let after : List Change := [.header "x-b" "2", .header "x-c" "3", .parameter "q" "ü",
        .parameter "p" "1", .drop, .header "x-d" "4"]
      let r := r₀.changedBy (before ++ .mark :: after)
      .mark ∉ after ∧ r.url = "/ä?q=ü" ∧ r.url.utf8ByteSize ≤ 9 ∧
        r.headers = [("x-a", "1"), ("x-d", "4")] ∧
        r.dropMarkedHeaders = { r with headers := [("x-a", "1")] } := by
  refine ⟨_, rfl, ?_⟩
  intro before after r
  have hlast : .mark ∉ after := by decide
  obtain ⟨hurl, _, _, _, _, _, _, hmark, _⟩ :=
    changes_keep_room_and_mark (.inr ⟨.put, "/ä", 9, 2, rfl⟩) (before ++ .mark :: after)
  exact ⟨hlast, by decide, hurl, by decide, hmark before after rfl hlast⟩

end HttpPipeline.Request
