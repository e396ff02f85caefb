import HttpPipeline.Options.File
import HttpPipeline.Proofs.Document.Json
import HttpPipeline.Proofs.Reading

/-! # Options read field by field

  Written options hold every field, in a table with one table for each section. What is read from
  such a document depends on each member by itself: a member that is taken out has its default, the
  others keep what they had, and members of other names that are put in do nothing, wherever they
  stand. Only the name and the version of an API version have no default. Main statement: what is
  read from any document that is left of written options in this way, whatever text it comes from.
-/

namespace HttpPipeline

open Document (Value)

/-! ## §1. What is left of written options -/

namespace Options

/-- Whether a table is what is left of another one without the members of some names, in any order
and with any further members of names that the other one does not have. -/
def IsLeftOf (whole : Value) (gone : List String) (part : Value) : Prop :=
  ∃ fields more members : List (String × Value),
    whole = .record fields ∧ part = .record members ∧
      (∀ member ∈ more, member.1 ∉ fields.map Prod.fst) ∧
      members.Perm (fields.filter (fun field => field.1 ∉ gone) ++ more)

/-- The names that are taken out of a document and of its sections. -/
structure Omissions where
  /-- The sections that are taken out. -/
  sections : List String := []
  /-- The fields that are taken out of the API version. -/
  apiVersion : List String := []
  /-- The fields that are taken out of the section on telemetry. -/
  telemetry : List String := []
  /-- The fields that are taken out of the section on retries. -/
  retry : List String := []
  /-- The fields that are taken out of the section on the transport. -/
  transport : List String := []

/-- Whether a document is what is left of written options, as a whole and in each section. An API
version that is not set is written as null, of which nothing can be taken out. -/
def IsLeftOfOptions (o : PipelineOptions) (gone : Omissions) (document : Value) : Prop :=
  ∃ apiVersion telemetry retry transport : Value,
    (match o.apiVersion with
      | none => apiVersion = .null
      | some set => IsLeftOf (ofApiVersion set) gone.apiVersion apiVersion) ∧
    IsLeftOf (ofTelemetry o.telemetry) gone.telemetry telemetry ∧
    IsLeftOf (ofRetry o.retry) gone.retry retry ∧
    IsLeftOf (ofTransport o.transport) gone.transport transport ∧
    IsLeftOf (.record [("api_version", apiVersion), ("telemetry", telemetry), ("retry", retry),
      ("transport", transport)]) gone.sections document

/-- The value of a field that may be taken out. -/
def keptOr {α : Type} (gone : List String) (name : String) (value default : α) : α :=
  if name ∈ gone then default else value

end Options

open Options (Omissions keptOr)

/-- The API version without some fields, of which the location has a default. -/
def ApiVersionOptions.without (o : ApiVersionOptions) (gone : List String) : ApiVersionOptions :=
  { o with location := keptOr gone "location" o.location .header }

/-- Telemetry options with the defaults for some fields. -/
def TelemetryOptions.without (o : TelemetryOptions) (gone : List String) : TelemetryOptions where
  applicationId := keptOr gone "application_id" o.applicationId none

/-- Retry options with the defaults for some fields. -/
def RetryOptions.without (o : RetryOptions) (gone : List String) : RetryOptions where
  maxRetries := keptOr gone "max_retries" o.maxRetries 4
  retryDelay := keptOr gone "retry_delay_ms" o.retryDelay 4000
  maxRetryDelay := keptOr gone "max_retry_delay_ms" o.maxRetryDelay 120000
  statusCodes := keptOr gone "status_codes" o.statusCodes [408, 429, 500, 502, 503, 504]

/-- Transport options with the defaults for some fields. -/
def TransportOptions.without (o : TransportOptions) (gone : List String) : TransportOptions where
  timeoutSecs := keptOr gone "timeout_secs" o.timeoutSecs 120
  poolIdleTimeoutSecs := keptOr gone "pool_idle_timeout_secs" o.poolIdleTimeoutSecs 90

/-- Pipeline options with the defaults for some sections, and for some fields of the others. -/
def PipelineOptions.without (o : PipelineOptions) (gone : Omissions) : PipelineOptions where
  apiVersion :=
    keptOr gone.sections "api_version" (o.apiVersion.map (·.without gone.apiVersion)) none
  telemetry := keptOr gone.sections "telemetry" (o.telemetry.without gone.telemetry) {}
  retry := keptOr gone.sections "retry" (o.retry.without gone.retry) {}
  transport := keptOr gone.sections "transport" (o.transport.without gone.transport) {}

/-- Whether an API version is there of which a field without a default is taken out. -/
def PipelineOptions.LacksVersion (o : PipelineOptions) (gone : Omissions) : Prop :=
  "api_version" ∉ gone.sections ∧ o.apiVersion.isSome = true ∧
    ("name" ∈ gone.apiVersion ∨ "version" ∈ gone.apiVersion)

instance (o : PipelineOptions) (gone : Omissions) : Decidable (o.LacksVersion gone) :=
  inferInstanceAs (Decidable (_ ∧ _))

namespace Options

/-! ## §2. Members -/

variable {d : Dialect} {gone : List String} {part : Value}

theorem record_injective {fields fields' : List (String × Value)}
    (h : Value.record fields = Value.record fields') : fields = fields' := by
  refine List.map_injective_iff.mpr ?_ (Value.table.inj h)
  rintro ⟨name, v⟩ ⟨name', v'⟩ heq
  obtain ⟨hname, rfl⟩ := Prod.mk.inj heq
  rw [Option.some.inj hname]

theorem valuesOf_record (members : List (String × Value)) (name : String) :
    valuesOf (members.map fun (name, v) => (some name, v)) name =
      (members.filter (·.1 == name)).map Prod.snd := by
  rw [valuesOf, List.filter_map, List.map_map]
  rfl

/-- Of members whose names differ just one has the name of a member. -/
theorem filter_name_eq_singleton {fields : List (String × Value)} {name : String} {v : Value}
    (hnames : (fields.map Prod.fst).Nodup) (h : (name, v) ∈ fields) :
    fields.filter (·.1 == name) = [(name, v)] := by
  induction fields with
  | nil => cases h
  | cons field fields ih =>
    obtain ⟨hfirst, hrest⟩ := List.nodup_cons.mp hnames
    have hmem {v'} (hv' : (name, v') ∈ fields) : name ∈ fields.map Prod.fst :=
      List.mem_map.mpr ⟨_, hv', rfl⟩
    rcases List.mem_cons.mp h with rfl | h
    · have hnone : fields.filter (·.1 == name) = [] := by
        rw [List.filter_eq_nil_iff]
        rintro ⟨name', v'⟩ hfield heq
        obtain rfl : name' = name := by simpa using heq
        exact hfirst (hmem hfield)
      rw [List.filter_cons_of_pos (by simp), hnone]
    · have hne : field.1 ≠ name := by
        rintro rfl
        exact hfirst (hmem h)
      rw [List.filter_cons_of_neg (by simpa using hne)]
      exact ih hrest h

/-- What a document has for a field that may be taken out. -/
def keptField (gone : List String) (field : String × Value) : Option Value :=
  if field.1 ∈ gone then none else some field.2

/-- **Every field by itself**: each one has its value if it is not taken out, wherever it stands and
whatever is put in. -/
theorem fieldValues_of_isLeftOf {fields : List (String × Value)} {names : List String}
    (h : IsLeftOf (.record fields) gone part) (hfields : fields.map Prod.fst = names)
    (hnames : names.Nodup) :
    fieldValues d names part = some (fields.map (keptField gone)) := by
  obtain ⟨fields', more, members, hwhole, rfl, hmore, hperm⟩ := h
  obtain rfl := record_injective hwhole
  subst hfields
  have hmember : ∀ field ∈ fields,
      memberOf (members.map fun (name, v) => (some name, v)) field.1 =
        some (keptField gone field) := by
    rintro ⟨name, v⟩ hfield
    have hother : more.filter (·.1 == name) = [] := by
      rw [List.filter_eq_nil_iff]
      intro member hmember heq
      obtain rfl : member.1 = name := by simpa using heq
      exact hmore member hmember (List.mem_map.mpr ⟨_, hfield, rfl⟩)
    -- At most one member has the name, so that the order does not matter.
    have hkept : (members.filter (·.1 == name)).Perm
        ([(name, v)].filter fun field => field.1 ∉ gone) := by
      have hfilter := hperm.filter (·.1 == name)
      rwa [List.filter_append, hother, List.append_nil, List.filter_filter,
        List.filter_congr fun _ _ => Bool.and_comm _ _, ← List.filter_filter,
        filter_name_eq_singleton hnames hfield] at hfilter
    rw [memberOf, valuesOf_record, keptField]
    by_cases hgone : name ∈ gone
    · rw [List.filter_cons_of_neg (by simpa using hgone)] at hkept
      rw [List.Perm.eq_nil hkept, if_pos hgone]
      rfl
    · rw [List.filter_cons_of_pos (by simpa using hgone)] at hkept
      rw [List.Perm.eq_singleton hkept, if_neg hgone]
      rfl
  have hnamed : (members.map fun (name, v) => (some name, v)).all (·.1.isSome) = true := by simp
  rw [Value.record, fieldValues, if_pos hnamed, mapM_eq_some_iff, List.map_map, List.map_map]
  exact List.map_congr_left hmember

/-! ## §3. Fields -/

/-- A field that may be taken out is read as it was written, or has its default. -/
theorem fieldOr_keptField {α : Type} {read : Value → Option α} {a : α} {name : String} {v : Value}
    (h : read v = some a) (default : α) :
    fieldOr read default (keptField gone (name, v)) = some (keptOr gone name a default) := by
  unfold keptField keptOr
  by_cases hgone : name ∈ gone
  · rw [if_pos hgone, if_pos hgone]
    rfl
  · rw [if_neg hgone, if_neg hgone]
    exact h

/-- A field without a default is only read if it is not taken out. -/
theorem requiredField_keptField {α : Type} {read : Value → Option α} {a : α} {name : String}
    {v : Value} (h : read v = some a) :
    requiredField read (keptField gone (name, v)) = if name ∈ gone then none else some a := by
  unfold keptField
  by_cases hgone : name ∈ gone
  · rw [if_pos hgone, if_pos hgone]
    rfl
  · rw [if_neg hgone, if_neg hgone]
    exact h

theorem natBelow?_ofNat {bound n : Nat} (h : n < bound) : natBelow? bound (ofNat n) = some n := by
  simp [natBelow?, ofNat, h]

theorem word16?_ofNat (w : UInt16) : word16? (ofNat w.toNat) = some w := by
  rw [word16?, natBelow?_ofNat w.toNat_lt_size, Option.map_some, UInt16.ofNat_toNat]

theorem word32?_ofNat (w : UInt32) : word32? (ofNat w.toNat) = some w := by
  rw [word32?, natBelow?_ofNat w.toNat_lt_size, Option.map_some, UInt32.ofNat_toNat]

theorem word64?_ofNat (w : UInt64) : word64? (ofNat w.toNat) = some w := by
  rw [word64?, natBelow?_ofNat w.toNat_lt_size, Option.map_some, UInt64.ofNat_toNat]

theorem text?_string (s : String) : text? (.string s) = some s := rfl

theorem optional_ofOptional {α : Type} {read : Value → Option α} {write : α → Value}
    (h : ∀ a, read (write a) = some a) (hnull : ∀ a, write a ≠ .null) (o : Option α) :
    optional read (ofOptional write o) = some o := by
  cases o with
  | none => rfl
  | some a =>
    show optional read (write a) = _
    unfold optional
    split
    case h_1 heq => exact absurd heq (hnull a)
    case h_2 => rw [h, Option.map_some]

theorem listOf_map {α : Type} {read : Value → Option α} {write : α → Value}
    (h : ∀ a, read (write a) = some a) (as : List α) :
    listOf read (.list (as.map write)) = some as := by
  rw [listOf, mapM_eq_some_iff, List.map_map]
  exact List.map_congr_left fun a _ => h a

theorem readLocation_locationName (l : ApiVersionLocation) :
    readLocation d (.string (locationName l)) = some l := by
  cases l <;> rfl

/-! ## §4. Sections -/

/-- An API version is read if its name and its version are not taken out. -/
theorem readApiVersion_of_isLeftOf {o : ApiVersionOptions}
    (h : IsLeftOf (ofApiVersion o) gone part) :
    readApiVersion d part =
      if "name" ∈ gone ∨ "version" ∈ gone then none else some (o.without gone) := by
  have hfields : fieldValues d ["location", "name", "version"] part = some _ :=
    fieldValues_of_isLeftOf h rfl (by decide)
  rw [readApiVersion, hfields]
  simp only [List.map_cons, List.map_nil, fieldOr_keptField (readLocation_locationName _),
    requiredField_keptField (text?_string _), Option.bind_eq_bind, Option.bind_some]
  -- Either of the two may be there or not, and both have to be.
  by_cases hgone : "name" ∈ gone <;> by_cases hgone' : "version" ∈ gone <;>
    simp [hgone, hgone', ApiVersionOptions.without]

theorem readTelemetry_of_isLeftOf {o : TelemetryOptions}
    (h : IsLeftOf (ofTelemetry o) gone part) :
    readTelemetry d part = some (o.without gone) := by
  have hfields : fieldValues d ["application_id"] part = some _ :=
    fieldValues_of_isLeftOf h rfl (by decide)
  have hnull (s : String) : Value.string s ≠ .null := nofun
  have hread := optional_ofOptional text?_string hnull o.applicationId
  rw [readTelemetry, hfields]
  simp only [List.map_cons, List.map_nil, fieldOr_keptField hread, Option.bind_eq_bind,
    Option.bind_some]
  rfl

theorem readRetry_of_isLeftOf {o : RetryOptions} (h : IsLeftOf (ofRetry o) gone part) :
    readRetry d part = some (o.without gone) := by
  have hfields : fieldValues d ["max_retries", "retry_delay_ms", "max_retry_delay_ms",
      "status_codes"] part = some _ :=
    fieldValues_of_isLeftOf h rfl (by decide)
  rw [readRetry, hfields]
  simp only [List.map_cons, List.map_nil, fieldOr_keptField (word32?_ofNat _),
    fieldOr_keptField (word64?_ofNat _), fieldOr_keptField (listOf_map word16?_ofNat _),
    Option.bind_eq_bind, Option.bind_some]
  rfl

theorem readTransport_of_isLeftOf {o : TransportOptions}
    (h : IsLeftOf (ofTransport o) gone part) :
    readTransport d part = some (o.without gone) := by
  have hfields : fieldValues d ["timeout_secs", "pool_idle_timeout_secs"] part = some _ :=
    fieldValues_of_isLeftOf h rfl (by decide)
  rw [readTransport, hfields]
  simp only [List.map_cons, List.map_nil, fieldOr_keptField (word64?_ofNat _),
    Option.bind_eq_bind, Option.bind_some]
  rfl

/-! ## §5. Documents -/

theorem optional_of_isLeftOf {α : Type} {read : Value → Option α} {whole : Value}
    (h : IsLeftOf whole gone part) : optional read part = (read part).map some := by
  obtain ⟨_, _, members, _, rfl, _, _⟩ := h
  rfl

/-- The API version is read with its section, unless one of its fields without a default is taken
out. -/
theorem fieldOr_apiVersion {o : PipelineOptions} {gone : Omissions} {apiVersion : Value}
    (h : match o.apiVersion with
      | none => apiVersion = .null
      | some set => IsLeftOf (ofApiVersion set) gone.apiVersion apiVersion) :
    fieldOr (optional (readApiVersion d)) none
        (keptField gone.sections ("api_version", apiVersion)) =
      if o.LacksVersion gone then none else some (o.without gone).apiVersion := by
  obtain ⟨set?, telemetry, retry, transport⟩ := o
  cases set? with
  | none =>
    obtain rfl : apiVersion = .null := h
    have hread : optional (readApiVersion d) .null = some none := rfl
    rw [if_neg fun hlacks => nomatch hlacks.2.1]
    exact fieldOr_keptField hread none
  | some set =>
    have hpart : IsLeftOf (ofApiVersion set) gone.apiVersion apiVersion := h
    have hread := readApiVersion_of_isLeftOf (d := d) hpart
    by_cases hrequired : "name" ∈ gone.apiVersion ∨ "version" ∈ gone.apiVersion
    · rw [if_pos hrequired] at hread
      by_cases hgone : "api_version" ∈ gone.sections
      · -- What is not there is not read.
        rw [if_neg fun hlacks => hlacks.1 hgone, PipelineOptions.without, keptField, keptOr,
          if_pos hgone, if_pos hgone, fieldOr]
      · rw [if_pos ⟨hgone, rfl, hrequired⟩, keptField, if_neg hgone, fieldOr,
          optional_of_isLeftOf hpart, hread, Option.map_none]
    · rw [if_neg hrequired] at hread
      rw [if_neg fun hlacks => hrequired hlacks.2.2]
      refine fieldOr_keptField ?_ none
      rw [optional_of_isLeftOf hpart, hread, Option.map_some, Option.map_some]

/-- What is left of written options is read field by field. -/
theorem readPipeline_of_isLeftOfOptions {o : PipelineOptions} {gone : Omissions} {document : Value}
    (h : IsLeftOfOptions o gone document) :
    readPipeline d document =
      if o.LacksVersion gone then none else some (o.without gone) := by
  obtain ⟨apiVersion, telemetry, retry, transport, hversion, htelemetry, hretry, htransport,
    hsections⟩ := h
  have hfields : fieldValues d ["api_version", "telemetry", "retry", "transport"] document =
      some _ := fieldValues_of_isLeftOf hsections rfl (by decide)
  rw [readPipeline, hfields]
  simp only [List.map_cons, List.map_nil, fieldOr_apiVersion hversion,
    fieldOr_keptField (readTelemetry_of_isLeftOf htelemetry),
    fieldOr_keptField (readRetry_of_isLeftOf hretry),
    fieldOr_keptField (readTransport_of_isLeftOf htransport), Option.bind_eq_bind,
    Option.bind_some]
  by_cases hlacks : o.LacksVersion gone
  · rw [if_pos hlacks, if_pos hlacks, Option.bind_none]
  · rw [if_neg hlacks, if_neg hlacks, Option.bind_some]
    rfl

theorem isLeftOf_self (fields : List (String × Value)) :
    IsLeftOf (.record fields) [] (.record fields) :=
  ⟨fields, [], fields, rfl, rfl, nofun, by simp⟩

/-- Written options are left of themselves if nothing is taken out. -/
theorem isLeftOfOptions_ofPipeline (o : PipelineOptions) :
    IsLeftOfOptions o {} (ofPipeline o) := by
  refine ⟨_, _, _, _, ?_, isLeftOf_self _, isLeftOf_self _, isLeftOf_self _, isLeftOf_self _⟩
  cases o.apiVersion with
  | none => rfl
  | some set => exact isLeftOf_self _

theorem without_none (o : PipelineOptions) : o.without {} = o := by
  obtain ⟨apiVersion, telemetry, retry, transport⟩ := o
  cases apiVersion <;> rfl

theorem isPlain_record {fields : List (String × Value)} (h : ∀ field ∈ fields, field.2.IsPlain) :
    (Value.record fields).IsPlain :=
  .table (List.forall_mem_map.mpr h)

/-- Options are written with whole numbers and texts alone. -/
theorem isPlain_ofPipeline (o : PipelineOptions) : (ofPipeline o).IsPlain := by
  have hversion : (ofOptional ofApiVersion o.apiVersion).IsPlain := by
    cases o.apiVersion with
    | none => exact .null
    | some set => exact isPlain_record (by simp [Value.IsPlain.string])
  have hid : (ofOptional Value.string o.telemetry.applicationId).IsPlain := by
    cases o.telemetry.applicationId with
    | none => exact .null
    | some id => exact .string id
  have hnumber (n : Nat) : (ofNat n).IsPlain := .integer n
  have hcodes : (Value.list (o.retry.statusCodes.map fun status => ofNat status.toNat)).IsPlain :=
    .list (List.forall_mem_map.mpr fun status _ => hnumber _)
  have htelemetry : (ofTelemetry o.telemetry).IsPlain := isPlain_record (by simp [hid])
  have hretry : (ofRetry o.retry).IsPlain := isPlain_record (by simp [hnumber, hcodes])
  have htransport : (ofTransport o.transport).IsPlain := isPlain_record (by simp [hnumber])
  exact isPlain_record (by simp [hversion, htelemetry, hretry, htransport])

/-- **Options are read field by field.** The text that is written for options gives them back. So
does what is left of it when any members are taken out of it or of its sections and any members of
other names are put in, in any order and in any text, but for the fields that are taken out: each of
these has its default, and so has a section that is taken out as a whole. The one exception is the
API version: a document that has one without its name or without its version cannot be read. -/
theorem written_options_read_field_by_field (o : PipelineOptions) :
    ofJson (Document.Json.write (ofPipeline o)) = .ok o ∧
    ∀ gone document, IsLeftOfOptions o gone document →
      (∀ d, readPipeline d document =
        if o.LacksVersion gone then none else some (o.without gone)) ∧
      ∀ text, Document.Json.parse? text = some document →
        ofJson text = if o.LacksVersion gone then .error .json else .ok (o.without gone) := by
  have hread {gone document} (h : IsLeftOfOptions o gone document) {text : String}
      (htext : Document.Json.parse? text = some document) :
      ofJson text = if o.LacksVersion gone then .error .json else .ok (o.without gone) := by
    rw [ofJson, htext, Option.bind_some, readPipeline_of_isLeftOfOptions h]
    by_cases hlacks : o.LacksVersion gone
    · rw [if_pos hlacks, if_pos hlacks]
    · rw [if_neg hlacks, if_neg hlacks]
  refine ⟨?_, fun gone document h => ⟨fun d => readPipeline_of_isLeftOfOptions h, fun text =>
    hread h⟩⟩
  have hwritten := hread (isLeftOfOptions_ofPipeline o)
    (Document.Json.parse?_write (isPlain_ofPipeline o))
  have hlacks : ¬o.LacksVersion {} := by
    rintro ⟨_, _, h | h⟩ <;> cases h
  rw [hwritten, if_neg hlacks, without_none]

/-- Options in the reverse order, with something put into three tables, and without the transport,
the location and two times. -/
theorem written_options_read_field_by_field_in_reverse :
    let o : PipelineOptions := {
      apiVersion := some { location := .queryParameter, name := "v", version := "2024" }
      telemetry := { applicationId := some "é\n" }
      retry := {
        maxRetries := 4294967295, retryDelay := 7, maxRetryDelay := 8, statusCodes := [503] }
      transport := { timeoutSecs := 9 } }
    let gone : Omissions := {
      sections := ["transport"], apiVersion := ["location"]
      retry := ["retry_delay_ms", "max_retry_delay_ms"] }
    let document : Value := .record [
      ("more", .list [.bool true]),
      ("retry", .record [("x", .integer (-1)), ("status_codes", .list [.integer 503]),
        ("max_retries", .integer 4294967295)]),
      ("telemetry", .record [("application_id", .string "é\n")]),
      ("api_version", .record [("x", .brokenString), ("version", .string "2024"),
        ("name", .string "v")])]
    let text := Document.Json.write document
    IsLeftOfOptions o gone document ∧ Document.Json.parse? text = some document ∧
      ofJson text = .ok {
        apiVersion := some { location := .header, name := "v", version := "2024" }
        telemetry := { applicationId := some "é\n" }
        retry := { maxRetries := 4294967295, statusCodes := [503] } } := by
  intro o gone document text
  have hpart : IsLeftOfOptions o gone document :=
    ⟨_, _, _, _,
      ⟨_, [("x", .brokenString)], _, rfl, rfl, by decide, List.reverse_perm'.mp (.of_eq rfl)⟩,
      isLeftOf_self _,
      ⟨_, [("x", .integer (-1))], _, rfl, rfl, by decide, List.reverse_perm'.mp (.of_eq rfl)⟩,
      isLeftOf_self _,
      ⟨_, [("more", .list [.bool true])], _, rfl, rfl, by decide,
        List.reverse_perm'.mp (.of_eq rfl)⟩⟩
  have hplain : document.IsPlain :=
    isPlain_record (by simp [isPlain_record, Value.IsPlain.list, Value.IsPlain.bool,
      Value.IsPlain.integer, Value.IsPlain.string, Value.IsPlain.brokenString])
  have htext : Document.Json.parse? text = some document := Document.Json.parse?_write hplain
  obtain ⟨_, hread⟩ := (written_options_read_field_by_field o).2 gone document hpart
  exact ⟨hpart, htext, hread text htext⟩

end Options

end HttpPipeline
