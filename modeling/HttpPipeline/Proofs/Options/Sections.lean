import HttpPipeline.Command.Upload
import HttpPipeline.Proofs.Reading
import HttpPipeline.Proofs.Text.Octets
import Mathlib.Data.List.Basic

/-! # Sections that a file leaves out

  The options of an upload are those of the storage client unless a file is given. A file is read
  section by section, and a section that it leaves out has the default of every pipeline; only the
  API version falls back on that of the storage client. Main statement: what the options are in each
  section, in terms of what the document in the file has for it. They differ from those without a
  file, in a section that is left out, in how often and when a request is sent again.
-/

namespace HttpPipeline.Options

open Document (Value)

/-! ## §1. Fields -/

section Reading

variable {α : Type} {read : Value → Option α} {default a : α} {field : Option Value}

/-- A field that is not there has its default. -/
theorem eq_default_of_fieldOr (h : fieldOr read default field = some a) (hfield : field = none) :
    a = default := by
  rw [hfield] at h
  exact (Option.some.inj h).symm

/-- A field that is there has been read. -/
theorem read_eq_of_fieldOr (h : fieldOr read default field = some a) {v : Value}
    (hfield : field = some v) : read v = some a := by
  rw [hfield] at h
  exact h

end Reading

/-- What a value has for the field of a name, where `names` are the names of all fields: the member
of that name of a table, or the item in its place of a list. -/
def fieldOf? (names : List String) (v : Value) (name : String) : Option Value :=
  match v with
  | .table members => (valuesOf members name).head?
  | .list items => items[names.idxOf name]?
  | _ => none

theorem eq_head?_of_memberOf {members : List (Option String × Value)} {name : String}
    {field : Option Value} (h : memberOf members name = some field) :
    field = (valuesOf members name).head? := by
  rw [memberOf] at h
  split at h
  case h_1 hvalues => rw [hvalues, ← Option.some.inj h]; rfl
  case h_2 v hvalues => rw [hvalues, ← Option.some.inj h]; rfl
  case h_3 => cases h

theorem memberOf_of_head?_eq_none {members : List (Option String × Value)} {name : String}
    (h : (valuesOf members name).head? = none) : memberOf members name = some none := by
  rw [memberOf, List.head?_eq_none_iff.mp h]

/-- A value whose fields can be told apart has for each name what it has for that field. -/
theorem eq_map_fieldOf? {d : Dialect} {names : List String} {v : Value}
    {values : List (Option Value)} (hnames : names.Nodup) (h : fieldValues d names v = some values) :
    values = names.map (fieldOf? names v) := by
  cases v with
  | table members =>
    rw [fieldValues] at h
    split at h
    case isTrue => exact eq_map_of_mapM (fun _ _ => eq_head?_of_memberOf) h
    case isFalse => cases h
  | list items =>
    rw [fieldValues] at h
    split at h
    case isTrue =>
      obtain rfl := Option.some.inj h
      refine List.ext_getElem (by simp) fun i hi hi' => ?_
      have hplace : i < names.length := by simpa using hi'
      simp [fieldOf?, hnames.idxOf_getElem i hplace]
    case isFalse => cases h
  | datetime => exact (Option.some.inj h).symm
  | _ => cases h

/-! ## §2. Sections -/

/-- The names of the sections, in the order in which a list has them. -/
def sectionNames : List String :=
  ["api_version", "telemetry", "retry", "transport"]

/-- What a document has for a section. -/
def sectionOf? (document : Value) (name : String) : Option Value :=
  fieldOf? sectionNames document name

/-- **Options are read section by section.** -/
theorem readPipeline_eq_some_iff {d : Dialect} {document : Value} {o : PipelineOptions} :
    readPipeline d document = some o ↔ (fieldValues d sectionNames document).isSome = true ∧
      fieldOr (optional (readApiVersion d)) none (sectionOf? document "api_version") =
        some o.apiVersion ∧
      fieldOr (readTelemetry d) {} (sectionOf? document "telemetry") = some o.telemetry ∧
      fieldOr (readRetry d) {} (sectionOf? document "retry") = some o.retry ∧
      fieldOr (readTransport d) {} (sectionOf? document "transport") = some o.transport := by
  unfold readPipeline
  cases hfields : fieldValues d sectionNames document with
  | none =>
    have hnone : fieldValues d ["api_version", "telemetry", "retry", "transport"] document = none :=
      hfields
    simp [hnone]
  | some values =>
    obtain rfl := eq_map_fieldOf? (by decide) hfields
    have hsome : fieldValues d ["api_version", "telemetry", "retry", "transport"] document =
        some [sectionOf? document "api_version", sectionOf? document "telemetry",
          sectionOf? document "retry", sectionOf? document "transport"] := hfields
    cases o
    simp [hsome, Option.bind_eq_some_iff]

/-- A document that is a table and has no section gives the defaults. -/
theorem readPipeline_of_no_section {d : Dialect} {members : List (Option String × Value)}
    (hnamed : ∀ member ∈ members, member.1.isSome = true)
    (habsent : ∀ name ∈ sectionNames, sectionOf? (.table members) name = none) :
    readPipeline d (.table members) = some {} := by
  have hfields : fieldValues d sectionNames (.table members) =
      some (sectionNames.map fun _ => none) := by
    rw [fieldValues, if_pos (List.all_eq_true.mpr hnamed), mapM_eq_some_iff, List.map_map]
    refine List.map_congr_left fun name hname => ?_
    exact memberOf_of_head?_eq_none (habsent name hname)
  rw [readPipeline_eq_some_iff, hfields, habsent "api_version" (by decide),
    habsent "telemetry" (by decide), habsent "retry" (by decide), habsent "transport" (by decide)]
  exact ⟨rfl, rfl, rfl, rfl, rfl⟩

/-! ## §3. Files -/

/-- The document in a file, with the format that the name of the file decides on. -/
def documentOf? (file : File) : Option (Dialect × Value) :=
  match file.text with
  | .error _ => none
  | .ok text =>
    if isJsonName file.name then (Document.Json.parse? text).map (Dialect.json, ·)
    else (Document.Toml.parse? text).map (Dialect.toml, ·)

theorem ofParsed_eq_ok_iff {d : Dialect} {parsed : Option Value} {e : Error}
    {o : PipelineOptions} :
    (match parsed.bind (readPipeline d) with
      | some options => Except.ok options
      | none => .error e) = .ok o ↔
      ∃ d' document, parsed.map (d, ·) = some (d', document) ∧
        readPipeline d' document = some o := by
  cases parsed with
  | none => simp
  | some document => cases hread : readPipeline d document <;> simp [hread]

/-- A file gives the options that are read from its document. -/
theorem ofFile_eq_ok_iff {file : File} {o : PipelineOptions} :
    ofFile file = .ok o ↔
      ∃ d document, documentOf? file = some (d, document) ∧ readPipeline d document = some o := by
  unfold ofFile documentOf?
  cases file.text with
  | error e => exact ⟨nofun, nofun⟩
  | ok text =>
    show (if isJsonName file.name then ofJson text else ofToml text) = .ok o ↔ _
    cases isJsonName file.name with
    | true => exact ofParsed_eq_ok_iff
    | false => exact ofParsed_eq_ok_iff

end HttpPipeline.Options

namespace HttpPipeline.Command

open Options (documentOf? sectionNames sectionOf?)

/-- An upload has the options of its file, but for the API version that the file does not set. -/
theorem loadOptions_eq_ok_iff {file : Options.File} {o : PipelineOptions} :
    loadOptions (some file) = .ok o ↔ ∃ loaded, Options.ofFile file = .ok loaded ∧
      o = { loaded with apiVersion := loaded.apiVersion <|> Blob.defaultOptions.apiVersion } := by
  simp only [loadOptions]
  cases Options.ofFile file with
  | error cause => exact ⟨nofun, nofun⟩
  | ok loaded =>
    constructor
    · intro h
      exact ⟨loaded, rfl, (Except.ok.inj h).symm⟩
    · rintro ⟨_, h, rfl⟩
      obtain rfl := Except.ok.inj h
      rfl

/-! ## §4. What a file leaves out -/

/-- **A file changes what it has a section for**, and the retries. Without a file an upload has the
storage client's options. With one that can be loaded, each section that the document in it has is
read from what is there, where an API version that is null counts as left out. A section that it
leaves out is as without a file, apart from the retries: these have the default of every pipeline,
which is to send again at the same status codes, but four times, first after 4 seconds and never
after more than 120. So a file without sections gives the storage client's options but for the
retries, and a file whose document is a table without sections can always be loaded. -/
theorem options_of_absent_sections (file : Options.File) :
    let retry : RetryOptions := {
      maxRetries := 4, retryDelay := 4000, maxRetryDelay := 120000
      statusCodes := Blob.defaultOptions.retry.statusCodes }
    loadOptions none = .ok Blob.defaultOptions ∧
    (∀ options, loadOptions (some file) = .ok options →
      ∃ d document, documentOf? file = some (d, document) ∧
        (sectionOf? document "api_version" = none →
          options.apiVersion = Blob.defaultOptions.apiVersion) ∧
        (sectionOf? document "telemetry" = none →
          options.telemetry = Blob.defaultOptions.telemetry) ∧
        (sectionOf? document "transport" = none →
          options.transport = Blob.defaultOptions.transport) ∧
        (sectionOf? document "retry" = none → options.retry = retry) ∧
        ((∀ name ∈ sectionNames, sectionOf? document name = none) →
          options = { Blob.defaultOptions with retry }) ∧
        (∀ v, sectionOf? document "api_version" = some v → ∃ set,
          Options.optional (Options.readApiVersion d) v = some set ∧
            options.apiVersion = (set <|> Blob.defaultOptions.apiVersion)) ∧
        (∀ v, sectionOf? document "telemetry" = some v →
          Options.readTelemetry d v = some options.telemetry) ∧
        (∀ v, sectionOf? document "retry" = some v →
          Options.readRetry d v = some options.retry) ∧
        ∀ v, sectionOf? document "transport" = some v →
          Options.readTransport d v = some options.transport) ∧
    ∀ d members, documentOf? file = some (d, .table members) →
      (∀ member ∈ members, member.1.isSome = true) →
      (∀ name ∈ sectionNames, sectionOf? (.table members) name = none) →
      loadOptions (some file) = .ok { Blob.defaultOptions with retry } := by
  intro retry
  refine ⟨rfl, fun options hload => ?_, fun d members hdocument hnamed habsent => ?_⟩
  · obtain ⟨loaded, hfile, rfl⟩ := loadOptions_eq_ok_iff.mp hload
    obtain ⟨d, document, hdocument, hread⟩ := Options.ofFile_eq_ok_iff.mp hfile
    obtain ⟨_, hversion, htelemetry, hretry, htransport⟩ :=
      Options.readPipeline_eq_some_iff.mp hread
    have hnoVersion (h : sectionOf? document "api_version" = none) : loaded.apiVersion = none :=
      Options.eq_default_of_fieldOr hversion h
    have hnoTelemetry := Options.eq_default_of_fieldOr htelemetry
    have hnoRetry := Options.eq_default_of_fieldOr hretry
    have hnoTransport := Options.eq_default_of_fieldOr htransport
    refine ⟨d, document, hdocument, fun h => ?_, hnoTelemetry, hnoTransport, hnoRetry,
      fun habsent => ?_, fun v h => ?_, fun v => Options.read_eq_of_fieldOr htelemetry,
      fun v => Options.read_eq_of_fieldOr hretry, fun v => Options.read_eq_of_fieldOr htransport⟩
    · rw [hnoVersion h]
      rfl
    · rw [hnoVersion (habsent _ (by decide)), hnoTelemetry (habsent _ (by decide)),
        hnoRetry (habsent _ (by decide)), hnoTransport (habsent _ (by decide))]
      rfl
    · exact ⟨loaded.apiVersion, Options.read_eq_of_fieldOr hversion h, rfl⟩
  · have hread := Options.readPipeline_of_no_section (d := d) hnamed habsent
    exact loadOptions_eq_ok_iff.mpr
      ⟨{}, Options.ofFile_eq_ok_iff.mpr ⟨d, .table members, hdocument, hread⟩, rfl⟩

/-- A file with one section, which is written as a list, and a name that is none. -/
theorem options_of_absent_sections_but_telemetry :
    ∃ options,
      loadOptions (some {
        name := "dir/o.JSON"
        content := some (Utf8.encode "\x7b\"telemetry\": [\"app\"], \"more\": 1\x7d") }) = .ok options ∧
      options.apiVersion = Blob.defaultOptions.apiVersion ∧
      options.telemetry = { applicationId := some "app" } ∧
      options.transport = Blob.defaultOptions.transport ∧ options.retry.maxRetries = 4 := by
  have hdecode : Utf8.decode (Utf8.encode "\x7b\"telemetry\": [\"app\"], \"more\": 1\x7d") =
      .ok "\x7b\"telemetry\": [\"app\"], \"more\": 1\x7d" := by
    rw [Utf8.encode_eq_flatMap]
    rfl
  have hparse : Document.Json.parse? "\x7b\"telemetry\": [\"app\"], \"more\": 1\x7d" =
      some (.table [(some "telemetry", .list [.string "app"]), (some "more", .integer 1)]) := by
    rfl
  have hjson : Options.isJsonName "dir/o.JSON" = true := by decide
  have hdocument : documentOf? {
      name := "dir/o.JSON"
      content := some (Utf8.encode "\x7b\"telemetry\": [\"app\"], \"more\": 1\x7d") } = some (.json,
        .table [(some "telemetry", .list [.string "app"]), (some "more", .integer 1)]) := by
    simp only [documentOf?, Options.File.text, hdecode, hjson, if_true, hparse, Option.map_some]
  have hload := loadOptions_eq_ok_iff.mpr ⟨{ telemetry := { applicationId := some "app" } },
    Options.ofFile_eq_ok_iff.mpr ⟨_, _, hdocument, rfl⟩, rfl⟩
  obtain ⟨d, document, hdocument', hversion, _, htransport, hretry, _, _, htelemetry, _⟩ :=
    (options_of_absent_sections _).2.1 _ hload
  obtain ⟨rfl, rfl⟩ := Prod.mk.inj (Option.some.inj (hdocument.symm.trans hdocument'))
  exact ⟨_, hload, hversion rfl, (Option.some.inj (htelemetry _ rfl)).symm, htransport rfl,
    congrArg RetryOptions.maxRetries (hretry rfl)⟩

/-- A file without sections gives other retries than no file. -/
theorem retries_differ_without_section :
    let file : Options.File := { name := "o.toml", content := some [] }
    ∃ options, loadOptions (some file) = .ok options ∧
      documentOf? file = some (.toml, .table []) ∧
      (∀ name ∈ sectionNames, sectionOf? (.table []) name = none) ∧
      loadOptions none = .ok Blob.defaultOptions ∧
      options.retry ≠ Blob.defaultOptions.retry := by
  exact ⟨_, rfl, rfl, fun _ _ => rfl, rfl, by decide⟩

end HttpPipeline.Command
