import AssocLint.CommandLine
import AssocLint.Proofs.Json.Printable
import AssocLint.Proofs.Text.Utf8

/-!
# Layers of settings

The settings of a run come from three layers: the defaults, the object of a configuration file and
the words of a request, of which later ones win (`layer`, `Settles`). `resolve` puts them together
as the program does, and `resolve_layers` tells which objects and words are accepted, what they
settle and that the rule runs with exactly these settings.

`Accepts` says of a reading what it accepts, and what can be said of the failure for everything
else. It is carried through the readers, one lemma for each of them, so that nothing a run cannot
use gets as far as the rule.
-/

namespace AssocLint

/-- A list of strings as a JSON value. -/
def Json.strings (texts : List String) : Json :=
  .array (texts.map .string)

theorem Json.strings_inj {texts texts' : List String} :
    strings texts = strings texts' ↔ texts = texts' := by
  rw [strings, strings, Json.array.injEq]
  exact List.map_inj_right fun _ _ h => Json.string.inj h

/-- A failure is about the configuration that a source holds. -/
structure Failure.IsAbout (source : String) (failure : Failure) : Prop where
  kind_eq : failure.kind = .config
  file_eq : failure.place.file = source

namespace Config

/-! ## What readings accept -/

/-- A reading gives exactly the answers with a property. Where there is none it fails, and the
failure has a property of its own. -/
structure Accepts {α : Type} (Q : Failure → Prop) (reading : Except Failure α) (P : α → Prop) :
    Prop where
  eq_ok_iff : ∀ answer, reading = .ok answer ↔ P answer
  of_eq_error : ∀ failure, reading = .error failure → Q failure

namespace Accepts

variable {α β : Type} {Q Q' : Failure → Prop} {reading : Except Failure α} {P P' : α → Prop}

theorem ok (answer : α) : Accepts Q (.ok answer) (answer = ·) where
  eq_ok_iff _ := iff_of_eq (Except.ok.injEq ..)
  of_eq_error _ h := by cases h

theorem error {failure : Failure} (h : Q failure) (hnone : ∀ answer, ¬ P answer) :
    Accepts Q (.error failure) P where
  eq_ok_iff answer := iff_of_false (by rintro ⟨⟩) (hnone answer)
  of_eq_error _ h' := Except.error.inj h' ▸ h

theorem congr (h : Accepts Q reading P) (hiff : ∀ answer, P answer ↔ P' answer) :
    Accepts Q reading P' where
  eq_ok_iff answer := (h.eq_ok_iff answer).trans (hiff answer)
  of_eq_error := h.of_eq_error

theorem mono (h : Accepts Q reading P) (hQ : ∀ failure, Q failure → Q' failure) :
    Accepts Q' reading P where
  eq_ok_iff := h.eq_ok_iff
  of_eq_error failure hfailure := hQ failure (h.of_eq_error failure hfailure)

theorem bind (h : Accepts Q reading P) {next : α → Except Failure β} {R : α → β → Prop}
    (hnext : ∀ answer, Accepts Q (next answer) (R answer)) :
    Accepts Q (reading >>= next) fun result => ∃ answer, P answer ∧ R answer result := by
  cases hreading : reading with
  | error failure =>
      refine error (h.of_eq_error failure hreading) fun result hresult => ?_
      obtain ⟨answer, hanswer, -⟩ := hresult
      rw [(h.eq_ok_iff answer).2 hanswer] at hreading
      cases hreading
  | ok answer =>
      refine (hnext answer).congr fun result => ⟨fun hR => ?_, fun hresult => ?_⟩
      · exact ⟨answer, (h.eq_ok_iff answer).1 hreading, hR⟩
      · obtain ⟨answer', hanswer', hR⟩ := hresult
        rw [(h.eq_ok_iff answer').2 hanswer'] at hreading
        cases hreading
        exact hR

theorem map (h : Accepts Q reading P) (f : α → β) :
    Accepts Q (reading.map f) fun result => ∃ answer, P answer ∧ f answer = result :=
  h.bind fun answer => ok (f answer)

/-- Items are accepted where each of them is written in the way that is read. -/
theorem mapM {read : β → Except Failure α} {write : α → β}
    (h : ∀ item, Accepts Q (read item) fun answer => item = write answer) (items : List β) :
    Accepts Q (items.mapM read) fun answers => items = answers.map write := by
  induction items with
  | nil =>
      refine (ok []).congr fun answers => ?_
      rw [eq_comm, List.map_eq_nil_iff.symm.trans eq_comm]
  | cons item items ih =>
      rw [List.mapM_cons]
      refine ((h item).bind fun answer => ih.bind fun answers => ok (answer :: answers)).congr
        fun all => ?_
      constructor
      · rintro ⟨answer, rfl, answers, rfl, rfl⟩
        rfl
      · intro hall
        obtain ⟨answer, answers, rfl, hanswer, hanswers⟩ := List.map_eq_cons_iff.1 hall.symm
        exact ⟨answer, hanswer.symm, answers, hanswers.symm, rfl⟩

end Accepts

/-! ## Values -/

section Values

variable (source key : String)

theorem isAbout_failure (message : String) : (failure source message).IsAbout source :=
  ⟨rfl, rfl⟩

theorem accepts_readString (value : Json) :
    Accepts (Failure.IsAbout source) (readString source key value) fun text =>
      value = .string text := by
  cases value with
  | string text =>
      exact (Accepts.ok text).congr fun _ => (iff_of_eq (Json.string.injEq ..)).symm
  | null | bool | int | float | array | object =>
      exact .error (isAbout_failure source _) (by rintro _ ⟨⟩)

theorem accepts_readInt (value : Json) :
    Accepts (Failure.IsAbout source) (readInt source key value) fun number =>
      value = .int number := by
  cases value with
  | int number =>
      exact (Accepts.ok number).congr fun _ => (iff_of_eq (Json.int.injEq ..)).symm
  | null | bool | float | string | array | object =>
      exact .error (isAbout_failure source _) (by rintro _ ⟨⟩)

theorem accepts_readStrings (value : Json) :
    Accepts (Failure.IsAbout source) (readStrings source key value) fun texts =>
      value = .strings texts := by
  cases value with
  | array items =>
      exact (Accepts.mapM (accepts_readString source _) items).congr fun _ =>
        (iff_of_eq (Json.array.injEq ..)).symm
  | null | bool | int | float | string | object =>
      exact .error (isAbout_failure source _) (by rintro _ ⟨⟩)

/-- The names of checkers as a JSON value; all of them are null. -/
def checkersValue (checkers : Option (List String)) : Json :=
  checkers.elim .null .strings

theorem checkersValue_inj {checkers checkers' : Option (List String)} :
    checkersValue checkers = checkersValue checkers' ↔ checkers = checkers' := by
  cases checkers with
  | none =>
      cases checkers' with
      | none => exact iff_of_true rfl rfl
      | some names' => exact iff_of_false (by rintro ⟨⟩) (by rintro ⟨⟩)
  | some names =>
      cases checkers' with
      | none => exact iff_of_false (by rintro ⟨⟩) (by rintro ⟨⟩)
      | some names' => exact Json.strings_inj.trans (iff_of_eq (Option.some.injEq ..)).symm

theorem accepts_map_some {value : Json} (hvalue : value ≠ .null) :
    Accepts (Failure.IsAbout source) ((readStrings source key value).map some) fun checkers =>
      value = checkersValue checkers := by
  refine ((accepts_readStrings source key value).map some).congr fun checkers => ?_
  cases checkers with
  | none =>
      exact iff_of_false (by rintro ⟨_, -, ⟨⟩⟩) hvalue
  | some names =>
      simp [checkersValue]

/-- Lists of strings by name as a JSON value. -/
def patternsValue (lists : List (String × List String)) : Json :=
  .object (lists.map fun list => (list.1, .strings list.2))

theorem patternsValue_inj {lists lists' : List (String × List String)} :
    patternsValue lists = patternsValue lists' ↔ lists = lists' := by
  rw [patternsValue, patternsValue, Json.object.injEq]
  refine List.map_inj_right fun list list' h => ?_
  rw [Prod.mk.injEq, Json.strings_inj] at h
  exact Prod.ext h.1 h.2

/-- A table with lists of strings set by name, one after another. -/
def setAll (table : Table String (List String)) (lists : List (String × List String)) :
    Table String (List String) :=
  lists.foldl (fun table list => table.set list.1 list.2) table

theorem accepts_foldlM_set (fields : List (String × Json)) (table : Table String (List String)) :
    Accepts (Failure.IsAbout source)
      (fields.foldlM
        (fun table field => do
          let texts ← readStrings source (key ++ "[" ++ Text.quoted field.1 ++ "]") field.2
          return table.set field.1 texts)
        table)
      fun table' => ∃ lists, Json.object fields = patternsValue lists ∧
        setAll table lists = table' := by
  induction fields generalizing table with
  | nil =>
      refine (Accepts.ok table).congr fun table' => ⟨fun h => ⟨[], rfl, h⟩, ?_⟩
      rintro ⟨lists, hlists, htable⟩
      cases lists with
      | nil => exact htable
      | cons list lists => cases hlists
  | cons field fields ih =>
      rw [List.foldlM_cons]
      refine (((accepts_readStrings source _ field.2).bind fun texts =>
        .ok (table.set field.1 texts)).bind fun table' => ih table').congr fun table' => ?_
      constructor
      · rintro ⟨_, ⟨texts, hvalue, rfl⟩, lists, hlists, htable⟩
        refine ⟨(field.1, texts) :: lists, ?_, htable⟩
        rw [patternsValue, List.map_cons, ← hvalue, ← Json.object.inj hlists]
      · rintro ⟨lists, hlists, htable⟩
        obtain ⟨list, more, rfl, rfl, hmore⟩ :=
          List.map_eq_cons_iff.1 (Json.object.inj hlists).symm
        exact ⟨_, ⟨list.2, rfl, rfl⟩, more, congrArg Json.object hmore.symm, htable⟩

theorem accepts_readPatterns (value : Json) :
    Accepts (Failure.IsAbout source) (readPatterns source key value) fun table =>
      ∃ lists, value = patternsValue lists ∧ setAll {} lists = table := by
  cases value with
  | object fields =>
      exact accepts_foldlM_set source key fields {}
  | null | bool | int | float | string | array =>
      exact .error (isAbout_failure source _) (by rintro _ ⟨_, ⟨⟩, -⟩)

end Values

/-! ## Fields -/

section Fields

variable (source : String) (fields : List (String × Json))

/-- What is accepted for a key that may be missing: what is accepted for its value, or for the value
that stands for the default. -/
theorem accepts_readField {α : Type} {key : String} {default : α}
    {read : String → Json → Except Failure α} {P : Json → α → Prop} (fallback : Json)
    (hread : ∀ value, Accepts (Failure.IsAbout source) (read key value) (P value))
    (hdefault : ∀ answer, default = answer ↔ P fallback answer) :
    Accepts (Failure.IsAbout source) (readField fields key default read)
      (P ((fields.lookup key).getD fallback)) := by
  unfold readField
  cases fields.lookup key with
  | none => exact (Accepts.ok default).congr hdefault
  | some value => exact hread value

/-- What is accepted for a key whose value is written in one way. -/
theorem accepts_readWritten {α : Type} {key : String} {default : α}
    {read : String → Json → Except Failure α} {write : α → Json}
    (hwrite : ∀ {answer answer'}, write answer = write answer' ↔ answer = answer')
    (hread : ∀ value, Accepts (Failure.IsAbout source) (read key value) fun answer =>
      value = write answer) :
    Accepts (Failure.IsAbout source) (readField fields key default read) fun answer =>
      (fields.lookup key).getD (write default) = write answer :=
  accepts_readField source fields (write default) hread fun _ => hwrite.symm

theorem accepts_checkKeys :
    Accepts (Failure.IsAbout source) (checkKeys source fields) fun _ =>
      ∀ field ∈ fields, field.1 ∈ keys := by
  have hknown : ((fields.map (·.1)).filter (!keys.contains ·)).isEmpty = true ↔
      ∀ field ∈ fields, field.1 ∈ keys := by
    simp [List.isEmpty_iff, List.filter_eq_nil_iff]
  unfold checkKeys
  dsimp only
  split
  · rename_i h
    exact (Accepts.ok ()).congr fun _ => iff_of_true rfl (hknown.1 h)
  · rename_i h
    exact .error ⟨rfl, rfl⟩ fun _ => mt hknown.2 h

end Fields

/-! ## Usable configurations -/

/-- A run can use a configuration: its policy and its format are known, and there is a worker. -/
structure IsUsable (config : Config) : Prop where
  policy : ∃ policy : Policy, policy.keyword = config.policy
  format : ∃ format : ReportFormat, format.keyword = config.format
  workers : 1 ≤ config.workers

theorem accepts_checkWord {α : Type} {all : List α} (hall : ∀ a, a ∈ all) (keyword : α → String)
    (source key word : String) :
    Accepts (Failure.IsAbout source) (checkWord source key word (all.map keyword)) fun _ =>
      ∃ a, keyword a = word := by
  have hknown : (all.map keyword).contains word = true ↔ ∃ a, keyword a = word := by
    simp [hall]
  unfold checkWord
  split
  · rename_i h
    exact (Accepts.ok ()).congr fun _ => iff_of_true rfl (hknown.1 h)
  · rename_i h
    exact .error (isAbout_failure source _) fun _ => mt hknown.2 h

theorem accepts_check (config : Config) (source : String) :
    Accepts (Failure.IsAbout source) (config.check source) fun _ => config.IsUsable := by
  have hpolicy (policy : Policy) : policy ∈ Policy.all := by cases policy <;> decide
  have hformat (format : ReportFormat) : format ∈ ReportFormat.all := by cases format <;> decide
  have hworkers : Accepts (Failure.IsAbout source)
      (if config.workers < 1 then
        .error (failure source ("workers must be at least 1, got " ++ toString config.workers))
      else .ok ()) fun _ => 1 ≤ config.workers := by
    split
    · rename_i h
      exact .error (isAbout_failure source _) fun _ => Int.not_le.2 h
    · rename_i h
      exact (Accepts.ok ()).congr fun _ => iff_of_true rfl (Int.not_lt.1 h)
  refine ((accepts_checkWord hpolicy _ source _ _).bind fun _ =>
    (accepts_checkWord hformat _ source _ _).bind fun _ => hworkers).congr fun _ => ?_
  constructor
  · rintro ⟨-, hpolicy, -, hformat, hworkers⟩
    exact ⟨hpolicy, hformat, hworkers⟩
  · rintro ⟨hpolicy, hformat, hworkers⟩
    exact ⟨(), hpolicy, (), hformat, hworkers⟩

/-! ## Layers -/

/-- The value of a key in the last layer that has one: a request, an object and the defaults. -/
def layer (requested : Option Json) (fields : List (String × Json)) (key : String)
    (default : Json) : Json :=
  (requested.or (fields.lookup key)).getD default

theorem layer_map {α : Type} {write : α → Json} {fields : List (String × Json)} {key : String}
    {default : Json} {value : α} (h : layer none fields key default = write value)
    (requested : Option α) :
    layer (requested.map write) fields key default = write (requested.getD value) := by
  cases requested with
  | none => exact h
  | some value => rfl

/-- A configuration holds for each key the value of the last layer that has one. The ids of a
request come after those of the object, and only an object names ids by file. -/
structure Settles (fields : List (String × Json)) (request : CheckRequest) (config : Config) :
    Prop where
  policy : layer (request.policy.map .string) fields "generic_policy" (.string "lenient") =
    .string config.policy
  workers : layer (request.workers.map .int) fields "workers" (.int 1) = .int config.workers
  checkers : layer (request.checkers.map .strings) fields "checkers" .null =
    checkersValue config.checkers
  format : layer (request.format.map .string) fields "output_format" (.string "gcc") =
    .string config.format
  suppress : ∃ ids, layer none fields "suppress" (.strings []) = .strings ids ∧
    ids ++ request.suppress.getD [] = config.suppress
  fileSuppressions : ∃ lists, layer none fields "file_suppressions" (.object []) =
    patternsValue lists ∧ setAll {} lists = config.fileSuppressions

theorem accepts_ofFields (source : String) (fields : List (String × Json)) :
    Accepts (Failure.IsAbout source) (ofFields source fields) fun config =>
      (∀ field ∈ fields, field.1 ∈ keys) ∧ Settles fields {} config ∧ config.IsUsable := by
  have hstring {text text' : String} : Json.string text = .string text' ↔ text = text' :=
    iff_of_eq (Json.string.injEq ..)
  have hint {value value' : Int} : Json.int value = .int value' ↔ value = value' :=
    iff_of_eq (Json.int.injEq ..)
  unfold ofFields
  refine ((accepts_checkKeys source fields).bind fun _ =>
    (accepts_readWritten source fields hstring (accepts_readString source _)).bind fun policy =>
    (accepts_readWritten source fields hint (accepts_readInt source _)).bind fun workers =>
    (accepts_readWritten source fields checkersValue_inj fun value => ?_).bind fun checkers =>
    (accepts_readWritten source fields Json.strings_inj (accepts_readStrings source _)).bind
      fun suppress =>
    (accepts_readField source fields (.object []) (accepts_readPatterns source _) ?_).bind
      fun fileSuppressions =>
    (accepts_readWritten source fields hstring (accepts_readString source _)).bind fun format =>
    (accepts_check _ source).bind fun _ => .ok _).congr fun config => ?_
  · -- The names of checkers may be null.
    cases value with
    | null =>
        exact (Accepts.ok none).congr fun _ => checkersValue_inj.symm
    | bool | int | float | string | array | object =>
        exact accepts_map_some source _ (by rintro ⟨⟩)
  · -- The default is a table without lists, which only an object without fields writes.
    intro table
    constructor
    · rintro rfl
      exact ⟨[], rfl, rfl⟩
    · rintro ⟨lists, hlists, rfl⟩
      cases lists with
      | nil => rfl
      | cons => cases hlists
  · -- What the object settles beside an empty request is what its fields are read as.
    constructor
    · rintro ⟨-, hkeys, policy, hpolicy, workers, hworkers, checkers, hcheckers,
        suppress, hsuppress, fileSuppressions, hfileSuppressions, format, hformat, -, husable, rfl⟩
      exact ⟨hkeys, ⟨hpolicy, hworkers, hcheckers, hformat,
        ⟨suppress, hsuppress, List.append_nil _⟩, hfileSuppressions⟩, husable⟩
    · rintro ⟨hkeys, h, husable⟩
      obtain ⟨suppress, hsuppress, hids⟩ := h.suppress
      have hids : suppress = config.suppress := (List.append_nil suppress).symm.trans hids
      exact ⟨(), hkeys, _, h.policy, _, h.workers, _, h.checkers,
        _, hsuppress.trans (congrArg Json.strings hids), _, h.fileSuppressions,
        _, h.format, (), husable, rfl⟩

/-- There is one configuration at most that an object and a request settle. -/
theorem Settles.eq {fields : List (String × Json)} {request : CheckRequest}
    {config config' : Config} (h : Settles fields request config)
    (h' : Settles fields request config') : config = config' := by
  obtain ⟨policy, workers, checkers, suppress, fileSuppressions, format⟩ := config
  obtain ⟨policy', workers', checkers', suppress', fileSuppressions', format'⟩ := config'
  have hpolicy := h.policy.symm.trans h'.policy
  have hworkers := h.workers.symm.trans h'.workers
  have hcheckers := h.checkers.symm.trans h'.checkers
  have hformat := h.format.symm.trans h'.format
  obtain ⟨ids, hids, rfl⟩ := h.suppress
  obtain ⟨ids', hids', rfl⟩ := h'.suppress
  obtain ⟨lists, hlists, rfl⟩ := h.fileSuppressions
  obtain ⟨lists', hlists', rfl⟩ := h'.fileSuppressions
  cases hpolicy
  cases hworkers
  cases checkersValue_inj.1 hcheckers
  cases hformat
  cases Json.strings_inj.1 (hids.symm.trans hids')
  cases patternsValue_inj.1 (hlists.symm.trans hlists')
  rfl

end Config

namespace CommandLine

open Config

/-- A request replaces what an object settles by its own words, and adds its ids. -/
theorem settles_applyRequest {fields : List (String × Json)} {base : Config}
    (h : Settles fields {} base) (request : CheckRequest) :
    Settles fields request (applyRequest base request) where
  policy := layer_map h.policy request.policy
  workers := layer_map h.workers request.workers
  checkers := by
    simp only [applyRequest, override]
    cases request.checkers with
    | none => exact h.checkers
    | some names => rfl
  format := layer_map h.format request.format
  suppress := by
    obtain ⟨ids, hids, hbase⟩ := h.suppress
    have hbase : ids = base.suppress := (List.append_nil ids).symm.trans hbase
    refine ⟨ids, hids, ?_⟩
    simp only [applyRequest, override, ← hbase]
    cases request.suppress with
    | none => exact List.append_nil ids
    | some more => rfl
  fileSuppressions := h.fileSuppressions

/-- The rule takes the options of a configuration that a run can use, and has its settings. -/
theorem settings_options {config : Config} (h : config.IsUsable) :
    ∃ policy : Policy, policy.keyword = config.policy ∧
      AssocTypeRule.settings config.options = .ok ⟨policy, config.workers⟩ := by
  obtain ⟨policy, hpolicy⟩ := h.policy
  have hsettings : AssocTypeRule.settings
      [("generic_policy", .string policy.keyword), ("workers", .int config.workers)] =
        .ok ⟨policy, max 1 config.workers⟩ := by
    cases policy <;> rfl
  refine ⟨policy, hpolicy, ?_⟩
  rw [options, ← hpolicy, hsettings, Int.max_eq_right h.workers]

/-! ## Requests -/

section Search

variable {files : Files} {request : CheckRequest}

/-- Where there is a configuration file, the system has told so. -/
theorem searchError?_of_configFile {file : PathName × String}
    (h : configFile files request.config = some file) :
    searchError? files request.config = none := by
  unfold configFile at h
  unfold searchError?
  cases hnamed : request.config.filter (!·.isEmpty) with
  | some name => rfl
  | none =>
      cases hfound : files.isFile (PathName.ofString defaultConfig) with
      | ok found => rfl
      | error error =>
          simp only [hnamed, hfound] at h
          cases h

theorem check_eq_checkConfigured (h : searchError? files request.config = none)
    (registry : Registry) :
    check files registry request = checkConfigured files registry request := by
  rw [check, h]

end Search

/-- The configuration of an object and a request, put together as the program does. -/
def resolve (source : String) (fields : List (String × Json)) (request : CheckRequest) :
    Except Failure Config := do
  let config := applyRequest (← ofFields source fields) request
  config.check ""
  return config

/-- A request is configured by the object in its configuration file, and by an object without fields
where it is known to have no file. -/
inductive ConfiguredBy (files : Files) (request : CheckRequest) :
    String → List (String × Json) → Prop where
  | file {name : PathName} {source text : String} {bytes : List UInt8}
      {fields : List (String × Json)}
      (hfile : configFile files request.config = some (name, source))
      (hread : files.read name = .ok bytes) (htext : Utf8.readLines bytes = .ok text)
      (hobject : Json.read text = .ok (.object fields)) : ConfiguredBy files request source fields
  | none (source : String) (hknown : searchError? files request.config = none)
      (hnone : configFile files request.config = none) : ConfiguredBy files request source []

/-- Every object without fractions configures a request whose file holds its text. -/
theorem ConfiguredBy.of_render {files : Files} {request : CheckRequest} {name : PathName}
    {source : String} {fields : List (String × Json)}
    (hfile : configFile files request.config = some (name, source))
    (hread : files.read name =
      .ok ((Json.object fields).render.toList.flatMap String.utf8EncodeChar))
    (hexact : (Json.object fields).isExact = true) : ConfiguredBy files request source fields := by
  have hreturn : '\r' ∉ (Json.object fields).render.toList := fun hmem =>
    absurd (Json.printable_render _ hexact _ hmem).1 (by decide)
  exact .file hfile hread (Utf8.readLines_encoded hreturn) (Json.read_render hexact)

theorem accepts_resolve (source : String) (fields : List (String × Json))
    (request : CheckRequest) :
    Accepts (·.kind = .config) (resolve source fields request) fun config =>
      (∀ field ∈ fields, field.1 ∈ keys) ∧ (∃ base, Settles fields {} base ∧ base.IsUsable) ∧
        Settles fields request config ∧ config.IsUsable := by
  have hkind (source : String) (failure : Failure) (h : failure.IsAbout source) :
      failure.kind = .config := h.kind_eq
  refine (((accepts_ofFields source fields).mono (hkind source)).bind fun base =>
    ((accepts_check (applyRequest base request) "").mono (hkind "")).bind fun _ => .ok _).congr
    fun config => ?_
  constructor
  · rintro ⟨base, ⟨hkeys, hbase, hbaseUsable⟩, -, husable, rfl⟩
    exact ⟨hkeys, ⟨base, hbase, hbaseUsable⟩, settles_applyRequest hbase request, husable⟩
  · rintro ⟨hkeys, ⟨base, hbase, hbaseUsable⟩, hconfig, husable⟩
    -- The two layers settle one configuration, so it is the one that the program makes.
    obtain rfl : config = applyRequest base request :=
      hconfig.eq (settles_applyRequest hbase request)
    exact ⟨base, ⟨hkeys, hbase, hbaseUsable⟩, (), husable, rfl⟩

section ConfiguredBy

variable {files : Files} {source : String} {fields : List (String × Json)}
  {request : CheckRequest} (h : ConfiguredBy files request source fields)
include h

theorem searchError?_of_configuredBy : searchError? files request.config = none := by
  cases h with
  | file hfile _ _ _ => exact searchError?_of_configFile hfile
  | none _ hknown _ => exact hknown

/-- The configuration before the words of the request, and the warnings that are logged about it. -/
theorem baseConfig_of_configuredBy :
    ∃ warnings : Config → String, baseConfig files request.config =
      ((ofFields source fields).map fun base => (base, warnings base)).mapError .failure := by
  cases h with
  | @file name _ text bytes _ hfile hread htext hobject =>
      refine ⟨fun base => String.join (base.warnings.map fun warning =>
        logLine "WARNI" "hirlint.config" (source ++ ": " ++ warning)), ?_⟩
      have hload : loadConfig files name source = (ofFields source fields).mapError .failure := by
        simp only [loadConfig, hread, ofBytes, htext, ofText, hobject]
      simp only [baseConfig, hfile, hload]
      cases ofFields source fields <;> rfl
  | none _ _ hnone =>
      refine ⟨fun _ => "", ?_⟩
      have hdefault : ofFields source [] = .ok {} := rfl
      simp only [baseConfig, hnone, hdefault]
      rfl

/-- The program fails with the failure of the configuration, or runs the checkers with it. -/
theorem check_of_configuredBy (registry : Registry) :
    ∃ warnings,
      (∀ failure, resolve source fields request = .error failure →
        check files registry request = fail (warnings ++ (failure.render ++ "\n"))) ∧
      ∀ config, resolve source fields request = .ok config →
        let outcome := checkWith files registry config request
        check files registry request = { outcome with errors := warnings ++ outcome.errors } := by
  obtain ⟨warnings, hbase⟩ := baseConfig_of_configuredBy h
  rw [check_eq_checkConfigured (searchError?_of_configuredBy h)]
  cases hfields : ofFields source fields with
  | error failure =>
      -- The words of the request are not even looked at.
      have hresolve : resolve source fields request = .error failure := by
        rw [resolve, hfields]
        rfl
      have hbase : baseConfig files request.config = .error (.failure failure) := by
        rw [hbase, hfields]
        rfl
      have hcheck : checkConfigured files registry request =
          fail ("" ++ (failure.render ++ "\n")) := by
        simp only [checkConfigured, hbase, String.empty_append]
      rw [hresolve]
      exact ⟨"", fun _ hfailure => Except.error.inj hfailure ▸ hcheck, by rintro _ ⟨⟩⟩
  | ok base =>
      -- What is left to refuse are words of the request.
      have hresolve : resolve source fields request =
          ((applyRequest base request).check "").map fun _ => applyRequest base request := by
        rw [resolve, hfields]
        rfl
      have hbase : baseConfig files request.config = .ok (base, warnings base) := by
        rw [hbase, hfields]
        rfl
      refine ⟨warnings base, ?_⟩
      cases hcheck : (applyRequest base request).check "" with
      | error failure =>
          rw [hresolve, hcheck]
          refine ⟨fun _ hfailure => ?_, by rintro _ ⟨⟩⟩
          cases hfailure
          simp only [checkConfigured, hbase, hcheck, fail]
      | ok _ =>
          rw [hresolve, hcheck]
          refine ⟨by rintro _ ⟨⟩, fun _ hconfig => ?_⟩
          cases hconfig
          simp only [checkConfigured, hbase, hcheck]

end ConfiguredBy

/-- What an object and the words of a request configure. An object is accepted when its keys are
known, each of its values is of its kind, and a run can use what it settles, both alone and with the
words of the request in place of its own; everything else is refused with a failure of the
configuration, before a checker runs. What is accepted is run with exactly what was settled. -/
theorem resolve_layers (source : String) (fields : List (String × Json))
    (request : CheckRequest) :
    (∀ failure, resolve source fields request = .error failure → failure.kind = .config ∧
      ∀ files registry, ConfiguredBy files request source fields →
        ∃ warnings, check files registry request = fail (warnings ++ (failure.render ++ "\n"))) ∧
    (∀ config, resolve source fields request = .ok config ↔
      (∀ field ∈ fields, field.1 ∈ keys) ∧ (∃ base, Settles fields {} base ∧ base.IsUsable) ∧
        Settles fields request config ∧ config.IsUsable) ∧
    ∀ config, resolve source fields request = .ok config →
      (∃ policy : Policy, policy.keyword = config.policy ∧
        AssocTypeRule.settings config.options = .ok ⟨policy, config.workers⟩) ∧
      ∀ files registry, ConfiguredBy files request source fields →
        ∃ warnings, check files registry request =
          let outcome := checkWith files registry config request
          { outcome with errors := warnings ++ outcome.errors } := by
  have haccepts := accepts_resolve source fields request
  refine ⟨fun failure hfailure => ⟨haccepts.of_eq_error failure hfailure, ?_⟩,
    haccepts.eq_ok_iff, fun config hconfig => ⟨?_, ?_⟩⟩
  · intro files registry hfiles
    obtain ⟨warnings, herror, -⟩ := check_of_configuredBy hfiles registry
    exact ⟨warnings, herror failure hfailure⟩
  · obtain ⟨-, -, -, husable⟩ := (haccepts.eq_ok_iff config).1 hconfig
    exact settings_options husable
  · intro files registry hfiles
    obtain ⟨warnings, -, hok⟩ := check_of_configuredBy hfiles registry
    exact ⟨warnings, hok config hconfig⟩

/-- The words of a request win over the file: the policy is that of the request, the workers are
those of the file, and the ids are those of both. A request without a worker is refused. -/
theorem resolve_layers_request_over_file :
    let fields := [("generic_policy", .string "strict"), ("workers", .int 4),
      ("suppress", .array [.string "a"])]
    let files := Files.ofRead "/work" fun _ =>
      .ok ((Json.object fields).render.toList.flatMap String.utf8EncodeChar)
    let source := (files.inDirectory defaultConfig).render
    let request : CheckRequest := { policy := some "lenient", suppress := some ["b"] }
    let config : Config := { policy := "lenient", workers := 4, suppress := ["a", "b"] }
    ConfiguredBy files request source fields ∧ resolve source fields request = .ok config ∧
      Settles fields request config ∧
      AssocTypeRule.settings config.options = .ok ⟨.lenient, 4⟩ ∧
      (∃ warnings, check files .default request =
        let outcome := checkWith files .default config request
        { outcome with errors := warnings ++ outcome.errors }) ∧
      ∃ failure warnings, resolve source fields { workers := some 0 } = .error failure ∧
        failure.kind = .config ∧
        check files .default { workers := some 0 } =
          fail (warnings ++ (failure.render ++ "\n")) := by
  intro fields files source request config
  have hfile : configFile files none = some (PathName.ofString defaultConfig, source) := rfl
  have hfiles : ConfiguredBy files request source fields := .of_render hfile rfl rfl
  have hfiles' : ConfiguredBy files { workers := some 0 } source fields := .of_render hfile rfl rfl
  have hresolve : resolve source fields request = .ok config := rfl
  obtain ⟨-, hiff, hruns⟩ := resolve_layers source fields request
  obtain ⟨-, -, hsettles, -⟩ := (hiff config).1 hresolve
  obtain ⟨⟨policy, hpolicy, hsettings⟩, hcheck⟩ := hruns config hresolve
  obtain ⟨hrefuses, -⟩ := resolve_layers source fields { workers := some 0 }
  obtain ⟨hkind, hfail⟩ := hrefuses _ rfl
  obtain ⟨warnings, hfail⟩ := hfail files .default hfiles'
  refine ⟨hfiles, hresolve, hsettles, ?_, hcheck files .default hfiles, _, warnings, rfl, hkind,
    hfail⟩
  cases policy with
  | lenient => exact hsettings
  | strict => exact absurd hpolicy (by decide)

end CommandLine
end AssocLint
