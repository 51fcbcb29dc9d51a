import AssocLint.Proofs.Config.Layers
import AssocLint.Proofs.Report.JsonLines
import AssocLint.Proofs.Runner.Warnings

/-!
# The status of `check`

A request to check dumps is carried out when its configuration is accepted, the checkers it names
are known and all of its dumps can be loaded (`CarriesOut`). Otherwise it is refused (`Refused`),
and then nothing is written, whatever was found in the dumps before the one that cannot be loaded:
dumps are all read before the output is opened.

`check_cases` tells the ways in which the program answers such a request, and `status_run_check`
reads the status off what is written. The only rule reports nothing but warnings, so a line that is
written always means status 1, unless the writing is cut off: an output that was opened may still
fail, when its disk is full or when it is closed, and that is status 2.
-/

namespace AssocLint

/-- What is written, to the standard output or to a file. -/
def Outcome.text (outcome : Outcome) : String :=
  outcome.output ++ outcome.written.elim "" (·.2)

/-- Lines are written, at least one, and each of them is a diagnostic in the same form. -/
def Outcome.WritesDiagnostics (outcome : Outcome) : Prop :=
  ∃ line ∈ [Diagnostic.render, Diagnostic.jsonLine], ∃ diagnostics ≠ [],
    outcome.text = CommandLine.unlines (diagnostics.map line)

/-! ## Text of a report -/

theorem Diagnostic.render_ne_empty (diagnostic : Diagnostic) : diagnostic.render ≠ "" := by
  intro h
  rw [render, String.append_eq_empty_iff] at h
  exact absurd h.2 (by decide)

namespace CommandLine

theorem unlines_cons (line : String) (lines : List String) :
    unlines (line :: lines) = line ++ "\n" ++ unlines lines := by
  rw [unlines, List.map_cons, String.join_cons]
  rfl

theorem unlines_eq_empty_iff {lines : List String} : unlines lines = "" ↔ lines = [] := by
  cases lines with
  | nil =>
      exact iff_of_true rfl rfl
  | cons line lines =>
      rw [unlines_cons, String.append_eq_empty_iff, String.append_eq_empty_iff]
      refine iff_of_false ?_ (List.cons_ne_nil _ _)
      rintro ⟨⟨-, h⟩, -⟩
      exact absurd h (by decide)

theorem unlines_map_eq_empty_iff {diagnostics : List Diagnostic} {line : Diagnostic → String} :
    unlines (diagnostics.map line) = "" ↔ diagnostics = [] :=
  unlines_eq_empty_iff.trans List.map_eq_nil_iff

theorem text_ne_empty_of_writesDiagnostics {outcome : Outcome} (h : outcome.WritesDiagnostics) :
    outcome.text ≠ "" := by
  obtain ⟨line, -, diagnostics, hsome, htext⟩ := h
  rw [htext]
  exact mt unlines_map_eq_empty_iff.1 hsome

/-- Lines set apart, with the end of the last one, are lines that each have their end. -/
theorem intercalate_append_newline (line : String) (lines : List String) :
    "\n".intercalate (line :: lines) ++ "\n" = unlines (line :: lines) := by
  induction lines generalizing line with
  | nil =>
      rw [String.intercalate_singleton, unlines_cons]
      exact (String.append_empty ..).symm
  | cons next lines ih =>
      rw [String.intercalate_cons_cons, String.append_assoc, ih, unlines_cons line]

theorem intercalate_cons_ne_empty {line : String} (h : line ≠ "") (lines : List String) :
    "\n".intercalate (line :: lines) ≠ "" := by
  cases lines with
  | nil =>
      rwa [String.intercalate_singleton]
  | cons next lines =>
      rw [String.intercalate_cons_cons]
      intro hempty
      simp only [String.append_eq_empty_iff] at hempty
      exact h hempty.1.1

theorem reportText_eq_unlines {report : Report} {format : ReportFormat}
    (h : ∀ line ∈ report.lines format, line ≠ "") :
    reportText report format = unlines (report.lines format) := by
  rw [reportText, Report.render]
  cases hlines : report.lines format with
  | nil =>
      rfl
  | cons line lines =>
      have hline : line ≠ "" := h line (hlines ▸ List.mem_cons_self)
      have hbody := intercalate_cons_ne_empty hline lines
      rw [if_neg fun hempty => hbody (String.isEmpty_iff.1 hempty), intercalate_append_newline]

/-- In the two formats that have a line for each diagnostic, a report is written as these lines. -/
theorem exists_line_reportText {format : String}
    (h : format = ReportFormat.gcc.keyword ∨ format = ReportFormat.json.keyword)
    (report : Report) :
    ∃ line ∈ [Diagnostic.render, Diagnostic.jsonLine],
      reportText report ((ReportFormat.ofKeyword? format).getD .summary) =
        unlines (report.diagnostics.map line) := by
  rcases h with rfl | rfl
  · refine ⟨Diagnostic.render, List.mem_cons_self, ?_⟩
    have hformat : (ReportFormat.ofKeyword? ReportFormat.gcc.keyword).getD .summary = .gcc := by
      decide
    rw [hformat]
    exact reportText_eq_unlines (List.forall_mem_map.2 fun d _ => d.render_ne_empty)
  · refine ⟨Diagnostic.jsonLine, List.mem_cons_of_mem _ List.mem_cons_self, ?_⟩
    have hformat : (ReportFormat.ofKeyword? ReportFormat.json.keyword).getD .summary = .json := by
      decide
    rw [hformat]
    exact reportText_eq_unlines (List.forall_mem_map.2 fun d _ => d.jsonLine_ne_empty)

/-- The status of a report of warnings. -/
theorem reportStatus_of_onlyWarns {report : Report} (h : report.OnlyWarns) :
    reportStatus report = if report.diagnostics = [] then 0 else 1 := by
  cases hdiagnostics : report.diagnostics with
  | nil =>
      rw [reportStatus, hdiagnostics]
      rfl
  | cons diagnostic rest =>
      have hwarning : diagnostic.severity = .warning :=
        h diagnostic (hdiagnostics ▸ List.mem_cons_self)
      have hproblem : (diagnostic.severity != .information) = true := by
        rw [hwarning]
        rfl
      rw [reportStatus, hdiagnostics, List.any_cons, hproblem]
      rfl

/-! ## Requests -/

/-- A request is configured: it is known which file it is configured by, that file can be used, and
with the settings of the request in place of its own it passes its check. -/
structure Configures (files : Files) (request : CheckRequest) (config : Config) : Prop where
  search : searchError? files request.config = none
  base : ∃ base warnings, baseConfig files request.config = .ok (base, warnings) ∧
    config = applyRequest base request ∧ config.check "" = .ok ()

/-- A request is carried out: it is configured, its checkers are known and its dumps are loaded. -/
structure CarriesOut (files : Files) (request : CheckRequest) (config : Config) : Prop where
  configures : Configures files request config
  known : ∀ name ∈ config.checkers.getD [], (Registry.default.get? name).isSome
  loads : ∀ file ∈ request.dumps, ∃ crate, loadDump files file = .ok crate

/-- A request is refused: no configuration is accepted, or a checker is unknown, or a dump cannot be
loaded. -/
inductive Refused (files : Files) (request : CheckRequest) : Prop where
  | config (h : ∀ config, ¬ Configures files request config)
  | checker {config : Config} (h : Configures files request config) {name : String}
      (hname : name ∈ config.checkers.getD []) (hunknown : Registry.default.get? name = none)
  | dump {file : String} (hfile : file ∈ request.dumps) {failure : Failure}
      (hload : loadDump files file = .error failure)

/-- The output of a request can be opened: it is the standard output, or a file that can be opened
for writing. -/
def CanOpen (files : Files) (destination : Option String) : Prop :=
  ∀ file, outputFile? files destination = some file → files.refusal? file = none

section Requests

variable {files : Files} {request : CheckRequest}

/-- There is one configuration at most. -/
theorem Configures.eq {config config' : Config} (h : Configures files request config)
    (h' : Configures files request config') : config = config' := by
  obtain ⟨-, base, warnings, hbase, rfl, -⟩ := h
  obtain ⟨-, base', warnings', hbase', rfl, -⟩ := h'
  rw [hbase] at hbase'
  cases hbase'
  rfl

theorem Refused.not_carriesOut (h : Refused files request) (config : Config) :
    ¬ CarriesOut files request config := by
  intro hcarries
  cases h with
  | config hnone =>
      exact hnone config hcarries.configures
  | checker hconfig hname hunknown =>
      have hknown := hcarries.known _ (hconfig.eq hcarries.configures ▸ hname)
      rw [hunknown] at hknown
      cases hknown
  | dump hfile hload =>
      obtain ⟨crate, hcrate⟩ := hcarries.loads _ hfile
      rw [hload] at hcrate
      cases hcrate

/-- A text is written in full, with its status, or the writing is cut off and gives status 2. -/
theorem write_cases (files : Files) (file : Option PathName) (status : Nat) (text : String) :
    let outcome := write files file status text
    outcome.cutOff = none ∧ outcome.ending = .status status ∧ outcome.text = text ∨
      outcome.cutOff ≠ none ∧ outcome.ending = .status 2 := by
  unfold write
  cases files.shortfall? file text with
  | none =>
      refine .inl ?_
      cases file with
      | none => exact ⟨rfl, rfl, String.append_empty ..⟩
      | some name => exact ⟨rfl, rfl, String.empty_append ..⟩
  | some cut =>
      refine .inr ?_
      cases file <;> exact ⟨Option.some_ne_none _, rfl⟩

/-- Where the output can be opened a text is written to it. -/
theorem deliver_eq_write {destination : Option String} (hopen : CanOpen files destination)
    (status : Nat) (text : String) : deliver files destination status text =
      write files (outputFile? files destination) status text := by
  have hrefusal : (outputFile? files destination).bind files.refusal? = none :=
    Option.bind_eq_none_iff.2 hopen
  simp only [deliver, hrefusal]

end Requests

/-! ## Answers to a request -/

/-- A configuration that passes its check gives the rule options that are in order. -/
theorem exists_settings_of_check {config : Config} (h : config.check "" = .ok ()) :
    ∃ settings, AssocTypeRule.settings config.options = .ok settings := by
  have husable : config.IsUsable := ((Config.accepts_check config "").eq_ok_iff ()).1 h
  obtain ⟨policy, -, hsettings⟩ := settings_options husable
  exact ⟨_, hsettings⟩

section Answers

variable {files : Files} {request : CheckRequest}

/-- Without a configuration the program fails, or ends because of bytes that are no text. -/
theorem check_of_not_configures (h : ∀ config, ¬ Configures files request config) :
    (∃ fault, (check files .default request).ending = .crash fault) ∨
      ∃ errors, check files .default request = fail errors := by
  cases hsearch : searchError? files request.config with
  | some error =>
      have hfail : check files .default request =
          failLogged (error.render (files.inDirectory defaultConfig)) := by
        simp only [check, hsearch]
      exact .inr ⟨_, hfail⟩
  | none =>
      rw [check_eq_checkConfigured hsearch]
      cases hbase : baseConfig files request.config with
      | error refusal =>
          cases refusal with
          | failure failure =>
              refine .inr ⟨failure.render ++ "\n", ?_⟩
              simp only [checkConfigured, hbase]
          | undecodable fault =>
              refine .inl ⟨fault, ?_⟩
              simp only [checkConfigured, hbase]
      | ok answer =>
          obtain ⟨base, warnings⟩ := answer
          cases hcheck : (applyRequest base request).check "" with
          | error failure =>
              refine .inr ⟨warnings ++ (failure.render ++ "\n"), ?_⟩
              simp only [checkConfigured, hbase, hcheck, fail]
          | ok _ =>
              exact absurd ⟨hsearch, base, warnings, hbase, rfl, hcheck⟩
                (h (applyRequest base request))

/-- With a configuration the checkers are run, and warnings about the configuration come first. -/
theorem check_of_configures {config : Config} (h : Configures files request config) :
    ∃ errors, check files .default request =
      { checkWith files .default config request with errors } := by
  obtain ⟨hsearch, base, warnings, hbase, rfl, hcheck⟩ := h
  refine ⟨warnings ++ (checkWith files .default (applyRequest base request) request).errors, ?_⟩
  rw [check_eq_checkConfigured hsearch]
  simp only [checkConfigured, hbase, hcheck]

/-- With a configuration the program fails and the request is refused, or the request is carried out
and a report of warnings is delivered. -/
theorem checkWith_cases {config : Config} (h : Configures files request config) :
    (∃ errors, checkWith files .default config request = fail errors ∧ Refused files request) ∨
    CarriesOut files request config ∧ ∃ report : Report, report.OnlyWarns ∧
      checkWith files .default config request =
        deliver files request.output (reportStatus report)
          (reportText report ((ReportFormat.ofKeyword? config.format).getD .summary)) := by
  cases hunknown : (config.checkers.getD []).filter
      fun name => (Registry.default.get? name).isNone with
  | cons name names =>
      have hmem := List.mem_filter.1 (hunknown ▸ List.mem_cons_self : name ∈ List.filter _ _)
      have hfail : ∃ errors, checkWith files .default config request = fail errors := by
        simp only [checkWith, hunknown, List.isEmpty_cons, Bool.not_false, if_true]
        exact ⟨_, rfl⟩
      obtain ⟨errors, hfail⟩ := hfail
      exact .inl ⟨errors, hfail, .checker h hmem.1 (Option.isNone_iff_eq_none.1 hmem.2)⟩
  | nil =>
      obtain ⟨base, warnings, -, -, hcheck⟩ := h.base
      have hruns : Runner.KeepsToRule ⟨.default, config.suppressions, config.options, .clear⟩
          config.checkers :=
        ⟨Registry.eq_assocType_of_mem_select config.checkers, exists_settings_of_check hcheck,
          CancelFlag.isClear_clear⟩
      rcases hruns.runAll_cases (loadDump files) request.dumps with
        ⟨report, hrun, hreport, hloads⟩ | ⟨file, hfile, failure, hload, hrun⟩
      · refine .inr ⟨⟨h, fun name hname => ?_, hloads⟩, report, hreport, ?_⟩
        · have hknown := List.filter_eq_nil_iff.1 hunknown name hname
          exact Option.isSome_iff_ne_none.2 fun hnone => hknown (Option.isNone_iff_eq_none.2 hnone)
        · simp only [checkWith, hunknown, List.isEmpty_nil, Bool.not_true, Bool.false_eq_true,
            if_false, hrun]
      · refine .inl ⟨failure.render ++ "\n", ?_, .dump hfile hload⟩
        simp only [checkWith, hunknown, List.isEmpty_nil, Bool.not_true, Bool.false_eq_true,
          if_false, hrun]

/-- The program cannot read the configuration as text; or it fails and the request is refused; or
the request is carried out and a report of warnings is delivered. -/
theorem check_cases (files : Files) (request : CheckRequest) :
    (∃ fault, (check files .default request).ending = .crash fault) ∨
    (∃ errors, check files .default request = fail errors ∧ Refused files request) ∨
    ∃ config, CarriesOut files request config ∧ ∃ report : Report, report.OnlyWarns ∧ ∃ errors,
      check files .default request =
        { deliver files request.output (reportStatus report)
            (reportText report ((ReportFormat.ofKeyword? config.format).getD .summary)) with
          errors } := by
  by_cases hconfig : ∃ config, Configures files request config
  · obtain ⟨config, h⟩ := hconfig
    obtain ⟨errors, hcheck⟩ := check_of_configures h
    rcases checkWith_cases h with ⟨errors', hfail, hrefused⟩ | ⟨hcarries, report, hreport, hdeliver⟩
    · rw [hfail] at hcheck
      exact .inr (.inl ⟨errors, hcheck, hrefused⟩)
    · rw [hdeliver] at hcheck
      exact .inr (.inr ⟨config, hcarries, report, hreport, errors, hcheck⟩)
  · have hnone : ∀ config, ¬ Configures files request config := not_exists.1 hconfig
    rcases check_of_not_configures hnone with hcrash | ⟨errors, hfail⟩
    · exact .inl hcrash
    · exact .inr (.inl ⟨errors, hfail, .config hnone⟩)

end Answers

/-! ## The status -/

/-- With a line for each diagnostic and an output that can be opened, the program ends with status 1
when it writes diagnostics, with 0 when it carries the request out and writes nothing, and with 2
otherwise. This takes an output that keeps all that is written to it: where the writing is cut off
the status is 2, whatever was written before. A request that is refused always gives status 2;
nothing is written to the standard output then, and no file is touched. -/
theorem status_run_check {files : Files} {words : List String} {request : CheckRequest}
    (hwords : Request.ofWords words = .ok (.check request))
    (hopen : CanOpen files request.output)
    (hformat : ∀ config, Configures files request config →
      config.format = ReportFormat.gcc.keyword ∨ config.format = ReportFormat.json.keyword)
    {status : Nat} (hreturns : (run files words).ending = .status status) :
    let outcome := run files words
    (outcome.cutOff = none →
      (status = 1 ↔ outcome.WritesDiagnostics) ∧
      (status = 0 ↔ (∃ config, CarriesOut files request config) ∧ outcome.text = "")) ∧
    (outcome.cutOff ≠ none → status = 2 ∧ ∃ config, CarriesOut files request config) ∧
    (status = 0 ∨ status = 1 ∨ status = 2) ∧
    (Refused files request → status = 2 ∧ outcome.output = "" ∧ outcome.written = none) := by
  intro outcome
  have houtcome : outcome = check files .default request := by
    simp only [outcome, run, hwords, answer]
  have hstatus : outcome.ending = .status status := hreturns
  rcases check_cases files request with
    ⟨fault, hcrash⟩ | ⟨errors, hfail, hrefused⟩ |
    ⟨config, hcarries, report, hreport, errors, hdeliver⟩
  · -- The program does not return.
    rw [houtcome, hcrash] at hstatus
    cases hstatus
  · -- The request is refused.
    rw [houtcome, hfail] at hstatus ⊢
    cases hstatus
    have hnothing : ¬ (fail errors).WritesDiagnostics :=
      fun h => text_ne_empty_of_writesDiagnostics h rfl
    have hnone : ¬ ((∃ config, CarriesOut files request config) ∧ (fail errors).text = "") :=
      fun ⟨⟨config, hcarries⟩, _⟩ => hrefused.not_carriesOut config hcarries
    exact ⟨fun _ => ⟨iff_of_false (by decide) hnothing, iff_of_false (by decide) hnone⟩,
      fun hcut => absurd rfl hcut, .inr (.inr rfl), fun _ => ⟨rfl, rfl, rfl⟩⟩
  · -- The request is carried out.
    have hcarried : ∃ config, CarriesOut files request config := ⟨config, hcarries⟩
    have hnotRefused (h : Refused files request) : False := h.not_carriesOut config hcarries
    obtain ⟨line, hline, hlines⟩ :=
      exists_line_reportText (hformat config hcarries.configures) report
    rw [deliver_eq_write hopen, hlines] at hdeliver
    rcases write_cases files (outputFile? files request.output) (reportStatus report)
        (unlines (report.diagnostics.map line)) with
      ⟨hall, hending, htext⟩ | ⟨hcut, hending⟩
    · -- All that was found is written.
      have hcutOff : outcome.cutOff = none := by
        rw [houtcome, hdeliver]
        exact hall
      have hwritten : outcome.text = unlines (report.diagnostics.map line) := by
        rw [houtcome, hdeliver]
        exact htext
      rw [houtcome, hdeliver, hending, reportStatus_of_onlyWarns hreport] at hstatus
      by_cases hnone : report.diagnostics = []
      · rw [if_pos hnone] at hstatus
        cases hstatus
        have hempty : outcome.text = "" := hwritten.trans (unlines_map_eq_empty_iff.2 hnone)
        have hnothing : ¬ outcome.WritesDiagnostics :=
          fun h => text_ne_empty_of_writesDiagnostics h hempty
        exact ⟨fun _ => ⟨iff_of_false (by decide) hnothing, iff_of_true rfl ⟨hcarried, hempty⟩⟩,
          fun hcut => absurd hcutOff hcut, .inl rfl, fun h => (hnotRefused h).elim⟩
      · rw [if_neg hnone] at hstatus
        cases hstatus
        have hwrites : outcome.WritesDiagnostics :=
          ⟨line, hline, report.diagnostics, hnone, hwritten⟩
        have hsome : outcome.text ≠ "" := text_ne_empty_of_writesDiagnostics hwrites
        exact ⟨fun _ => ⟨iff_of_true rfl hwrites, iff_of_false (by decide) fun h => hsome h.2⟩,
          fun hcut => absurd hcutOff hcut, .inr (.inl rfl), fun h => (hnotRefused h).elim⟩
    · -- The output fails on the way.
      have hcutOff : outcome.cutOff ≠ none := by
        rw [houtcome, hdeliver]
        exact hcut
      rw [houtcome, hdeliver, hending] at hstatus
      cases hstatus
      exact ⟨fun hall => absurd hall hcutOff, fun _ => ⟨rfl, hcarried⟩, .inr (.inr rfl),
        fun h => (hnotRefused h).elim⟩

/-- There is a dump under every absolute name and no other file: the first dump is loaded, the last
one is missing, and the output file is left alone. -/
theorem status_run_check_missing_dump :
    let dump := "(crate \"a.rs\" (impl :trait I :self-ty S
      (type T (path \"A\")) (fn f (block (path \"A\" :res variant)))))"
    let files := Files.ofRead "/work" fun name =>
      if name.root = "/" then .ok (dump.toList.map (·.toNat.toUInt8)) else .error .missing
    let words := ["check", "/a.hir", "b.hir", "--format", "json", "-o", "out/report.txt"]
    ∃ request, Request.ofWords words = .ok (.check request) ∧ CanOpen files request.output ∧
      (∀ config, Configures files request config →
        config.format = ReportFormat.gcc.keyword ∨ config.format = ReportFormat.json.keyword) ∧
      (loadDump files "/a.hir").isOk ∧ Refused files request ∧
      (run files words).ending = .status 2 ∧
      (run files words).output = "" ∧ (run files words).written = none := by
  intro dump files words
  let request : CheckRequest :=
    { dumps := ["/a.hir", "b.hir"], format := some "json", output := some "out/report.txt" }
  have hwords : Request.ofWords words = .ok (.check request) := rfl
  have hopen : CanOpen files request.output := fun _ _ => rfl
  have hformat (config : Config) (h : Configures files request config) :
      config.format = ReportFormat.gcc.keyword ∨ config.format = ReportFormat.json.keyword := by
    obtain ⟨-, base, warnings, -, rfl, -⟩ := h
    exact .inr rfl
  have hmissing : ∃ failure, loadDump files "b.hir" = .error failure := ⟨_, rfl⟩
  obtain ⟨failure, hload⟩ := hmissing
  have hrefused : Refused files request :=
    .dump (List.mem_cons_of_mem _ List.mem_cons_self) hload
  -- The configuration is the default one, so the program returns.
  have hconfig : Configures files request (applyRequest {} request) :=
    ⟨rfl, {}, "", rfl, rfl, rfl⟩
  have hreturns : (run files words).ending = .status 2 := by
    obtain ⟨errors, hcheck⟩ := check_of_configures hconfig
    rcases checkWith_cases hconfig with ⟨errors', hfail, -⟩ | ⟨hcarries, -⟩
    · rw [hfail] at hcheck
      simp only [run, hwords, answer, hcheck, fail]
    · exact absurd hcarries (hrefused.not_carriesOut _)
  obtain ⟨-, -, -, hrefuses⟩ := status_run_check hwords hopen hformat hreturns
  obtain ⟨-, houtput, hwritten⟩ := hrefuses hrefused
  exact ⟨request, hwords, hopen, hformat, by decide +kernel, hrefused, hreturns, houtput, hwritten⟩

end CommandLine
end AssocLint
