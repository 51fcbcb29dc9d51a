import AssocLint.Proofs.Config.Layers
import AssocLint.Proofs.Text.Utf8

/-!
# Files that hold configurations

A configuration file may hold any bytes. Where they are UTF-8, every stage of reading refuses what
it cannot use with a failure of the configuration (`accepts_ofText`), so the program ends with a
status. Bytes that are no UTF-8 are not refused like this: the program ends early
(`check_config_bytes`), although it refuses such a dump with a failure (`loadDump_of_not_isText`).
Limits of an interpreter, on the digits of an integer and on nesting, are no part of `Json.read`.
-/

namespace AssocLint

/-! ## Reading -/

namespace Config

/-- A text is accepted when it holds an object that is accepted. -/
theorem accepts_ofText (source text : String) :
    Accepts (Failure.IsAbout source) (ofText source text) fun config =>
      ∃ fields, Json.read text = .ok (.object fields) ∧ (∀ field ∈ fields, field.1 ∈ keys) ∧
        Settles fields {} config ∧ config.IsUsable := by
  unfold ofText
  cases hread : Json.read text with
  | error fault =>
      exact .error ⟨rfl, rfl⟩ (by rintro _ ⟨_, ⟨⟩, -⟩)
  | ok value =>
      cases value with
      | object fields =>
          refine (accepts_ofFields source fields).congr fun config => ?_
          constructor
          · exact fun h => ⟨fields, rfl, h⟩
          · rintro ⟨_, ⟨⟩, h⟩
            exact h
      | null | bool | int | float | string | array =>
          exact .error (isAbout_failure source _) (by rintro _ ⟨_, ⟨⟩, -⟩)

end Config

namespace CommandLine

open Config

/-! ## Endings -/

theorem reportStatus_le (report : Report) : reportStatus report ≤ 2 := by
  unfold reportStatus
  split
  · decide
  · split <;> decide

theorem ending_write {status : Nat} (hstatus : status ≤ 2) (files : Files)
    (file : Option PathName) (text : String) :
    ∃ code ≤ 2, (write files file status text).ending = .status code := by
  unfold write
  cases files.shortfall? file text with
  | none => cases file <;> exact ⟨status, hstatus, rfl⟩
  | some cut => cases file <;> exact ⟨2, Nat.le_refl 2, rfl⟩

theorem ending_deliver {status : Nat} (hstatus : status ≤ 2) (files : Files)
    (destination : Option String) (text : String) :
    ∃ code ≤ 2, (deliver files destination status text).ending = .status code := by
  unfold deliver
  dsimp only
  split
  · exact ⟨2, Nat.le_refl 2, rfl⟩
  · exact ending_write hstatus ..

/-- With a configuration that has been checked the program always ends with a status. -/
theorem ending_checkWith (files : Files) (registry : Registry) (config : Config)
    (request : CheckRequest) :
    ∃ code ≤ 2, (checkWith files registry config request).ending = .status code := by
  unfold checkWith
  dsimp only
  split
  · exact ⟨2, Nat.le_refl 2, rfl⟩
  · split
    · exact ⟨2, Nat.le_refl 2, rfl⟩
    · exact ending_deliver (reportStatus_le _) ..

theorem ending_check {files : Files} {request : CheckRequest}
    (h : ∀ fault, baseConfig files request.config ≠ .error (.undecodable fault))
    (registry : Registry) :
    ∃ code ≤ 2, (check files registry request).ending = .status code := by
  unfold check
  split
  · exact ⟨2, Nat.le_refl 2, rfl⟩
  unfold checkConfigured
  split
  · exact ⟨2, Nat.le_refl 2, rfl⟩
  · rename_i fault hbase
    exact absurd hbase (h fault)
  · rename_i base warnings hbase
    dsimp only
    split
    · exact ⟨2, Nat.le_refl 2, rfl⟩
    · exact ending_checkWith ..

/-! ## Bytes -/

section Bytes

variable {files : Files} {name : PathName} {bytes : List UInt8}
  (hread : files.read name = .ok bytes)
include hread

theorem loadConfig_of_isText (h : Utf8.IsText bytes) (source : String) :
    (∃ config, loadConfig files name source = .ok config ∧ config.check "" = .ok ()) ∨
      ∃ failure, loadConfig files name source = .error (.failure failure) ∧
        failure.IsAbout source := by
  obtain ⟨text, htext⟩ := Utf8.readLines_of_isText h
  have haccepts := accepts_ofText source text
  simp only [loadConfig, hread, ofBytes, htext]
  cases hconfig : ofText source text with
  | error failure =>
      exact .inr ⟨failure, rfl, haccepts.of_eq_error failure hconfig⟩
  | ok config =>
      obtain ⟨-, -, -, -, husable⟩ := (haccepts.eq_ok_iff config).1 hconfig
      exact .inl ⟨config, rfl, ((accepts_check config "").eq_ok_iff ()).2 husable⟩

theorem loadConfig_of_not_isText (h : ¬ Utf8.IsText bytes) (source : String) :
    ∃ fault, loadConfig files name source = .error (.undecodable fault) := by
  obtain ⟨fault, hfault⟩ := Utf8.readLines_of_not_isText h
  refine ⟨fault, ?_⟩
  simp only [loadConfig, hread, ofBytes, hfault]

end Bytes

/-- A dump whose bytes are no UTF-8 is refused with a failure. -/
theorem loadDump_of_not_isText {files : Files} {file : String} {bytes : List UInt8}
    (hread : files.read (PathName.ofString file) = .ok bytes) (h : ¬ Utf8.IsText bytes) :
    ∃ failure, loadDump files file = .error failure ∧ failure.kind = .dump ∧
      failure.code = .dumpUnreadable := by
  obtain ⟨fault, hfault⟩ := Utf8.readLines_of_not_isText h
  simp only [loadDump, hread, hfault]
  exact ⟨_, rfl, rfl, rfl⟩

/-- What the program does with the bytes of its configuration file. If they are UTF-8, they give a
configuration that passes its check or a failure about the file, and the program ends with status 0,
1 or 2. If they are not, it always ends early. `Json.read` takes integers of any length and values
nested to any depth: where an interpreter refuses integers of more than 4300 digits, or nesting
beyond its recursion limit, the program ends early on such texts too, and this is not part of it. -/
theorem check_config_bytes {files : Files} {request : CheckRequest} {name : PathName}
    {source : String} {bytes : List UInt8}
    (hfile : configFile files request.config = some (name, source))
    (hread : files.read name = .ok bytes) (registry : Registry) :
    (Utf8.IsText bytes →
      ((∃ config, loadConfig files name source = .ok config ∧ config.check "" = .ok ()) ∨
        ∃ failure, loadConfig files name source = .error (.failure failure) ∧
          failure.IsAbout source) ∧
      ∃ code ≤ 2, (check files registry request).ending = .status code) ∧
    (¬ Utf8.IsText bytes →
      ∃ fault, loadConfig files name source = .error (.undecodable fault) ∧
        (check files registry request).ending = .crash fault) := by
  refine ⟨fun htext => ?_, fun htext => ?_⟩
  · have hload := loadConfig_of_isText hread htext source
    refine ⟨hload, ending_check (fun fault hbase => ?_) registry⟩
    rcases hload with ⟨config, hconfig, -⟩ | ⟨failure, hfailure, -⟩
    · simp only [baseConfig, hfile, hconfig] at hbase
      cases hbase
    · simp only [baseConfig, hfile, hfailure] at hbase
      cases hbase
  · obtain ⟨fault, hfault⟩ := loadConfig_of_not_isText hread htext source
    refine ⟨fault, hfault, ?_⟩
    have hbase : baseConfig files request.config = .error (.undecodable fault) := by
      simp only [baseConfig, hfile, hfault]
      rfl
    simp only [check_eq_checkConfigured (searchError?_of_configFile hfile), checkConfigured, hbase]

/-- An object without fields is a configuration, and a byte that begins no character is none. -/
theorem check_config_bytes_object_and_stray :
    let files (bytes : List UInt8) := Files.ofRead "/work" fun _ => .ok bytes
    let name := PathName.ofString defaultConfig
    let source := ((files [0xff]).inDirectory defaultConfig).render
    Utf8.IsText [0x7b, 0x7d] ∧
      (∃ code ≤ 2, (check (files [0x7b, 0x7d]) .default {}).ending = .status code) ∧
      ¬ Utf8.IsText [0xff] ∧
      ∃ fault, loadConfig (files [0xff]) name source = .error (.undecodable fault) ∧
        (check (files [0xff]) .default {}).ending = .crash fault := by
  intro files name source
  have hfile (bytes : List UInt8) :
      configFile (files bytes) ({} : CheckRequest).config = some (name, source) := rfl
  have hobject : Utf8.IsText [0x7b, 0x7d] := ⟨['\x7b', '\x7d'], rfl⟩
  have hstray : ¬ Utf8.IsText [0xff] := by
    rintro ⟨chars, hchars⟩
    have hdecode := Utf8.decode_eq_ok_iff.2 hchars
    cases hdecode
  obtain ⟨htext, -⟩ := check_config_bytes (hfile [0x7b, 0x7d]) rfl .default
  obtain ⟨-, hbytes⟩ := check_config_bytes (hfile [0xff]) rfl .default
  exact ⟨hobject, (htext hobject).2, hstray, hbytes hstray⟩

/-- A file of one stray byte gives neither a configuration nor a failure, and no status. -/
theorem check_config_bytes_stray :
    ¬ ∀ (files : Files) (request : CheckRequest) (name : PathName) (source : String)
      (bytes : List UInt8), configFile files request.config = some (name, source) →
      files.read name = .ok bytes →
      ((∃ config, loadConfig files name source = .ok config ∧ config.check "" = .ok ()) ∨
        ∃ failure, loadConfig files name source = .error (.failure failure) ∧
          failure.kind = .config) ∧
      ∃ code ≤ 2, (check files .default request).ending = .status code := by
  intro h
  let files := Files.ofRead "/work" fun _ => .ok [0xff]
  obtain ⟨-, code, -, hending⟩ :=
    h files {} (PathName.ofString defaultConfig) (files.inDirectory defaultConfig).render [0xff]
      rfl rfl
  cases hending

end CommandLine
end AssocLint
