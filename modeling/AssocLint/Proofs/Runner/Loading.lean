import AssocLint.CommandLine
import AssocLint.Proofs.Runner.Steps

/-!
# What a run loads

A run loads crates one at a time, and asks the flag before each crate that it has loaded. With a log
of what happens (`Runner.runLogged`) one can tell what was loaded when. What is not loaded has no
part in the outcome, and once a crate has been loaded the flag keeps the run from loading another.
But the flag is not asked before a crate is loaded: after it is set the next crate is still loaded,
and where that fails the run fails (`loaded_runLogged`).
-/

namespace AssocLint

/-- What happens in a run over crates. -/
inductive RunEvent (σ : Type) where
  /-- A crate is loaded, or cannot be loaded. -/
  | load (source : σ)
  /-- The flag is asked before a crate. -/
  | ask (answer : Bool)
  /-- The checkers are run over a crate. -/
  | examine (source : σ)

namespace RunEvent

variable {σ : Type}

/-- What an event loads. -/
def loaded? : RunEvent σ → Option σ
  | .load source => some source
  | _ => none

def loaded (events : List (RunEvent σ)) : List σ :=
  events.filterMap loaded?

/-- Whether the flag is set whenever it is asked. -/
def AllCancelled (events : List (RunEvent σ)) : Prop :=
  ∀ answer, ask answer ∈ events → answer = true

end RunEvent

/-- The outcome of a run and what happened in it, in order. -/
structure LoggedRun (σ : Type) where
  outcome : Except Failure Report × Runner
  log : List (RunEvent σ)

/-- A run before which something has happened. -/
def LoggedRun.after {σ : Type} (run : LoggedRun σ) (events : List (RunEvent σ)) : LoggedRun σ :=
  { run with log := events ++ run.log }

namespace Runner

variable {σ : Type}

/-- Runs checkers over crates that are still to be loaded, as `runFrom` does, and logs what
happens. -/
def runLoggedFrom (load : σ → Except Failure Crate) (names : Option (List String)) :
    Runner → Report → List σ → LoggedRun σ
  | runner, report, [] => ⟨(.ok report, runner), []⟩
  | runner, report, source :: rest =>
    match load source with
    | .error failure => ⟨(.error failure, runner), [.load source]⟩
    | .ok crate =>
      if runner.flag.ask.1 then
        ⟨(.ok { report with cancelled := true }, runner.asked), [.load source, .ask true]⟩
      else
        (runLoggedFrom load names (runner.asked.run names crate).2
          (report.merge (runner.asked.run names crate).1) rest).after
            [.load source, .ask false, .examine source]

/-- Runs checkers over crates that are still to be loaded, and logs what happens. -/
def runLogged (runner : Runner) (load : σ → Except Failure Crate)
    (names : Option (List String)) (sources : List σ) : LoggedRun σ :=
  runLoggedFrom load names runner {} sources

section From

variable (load : σ → Except Failure Crate) (names : Option (List String)) (runner : Runner)
  (report : Report) (sources : List σ)

/-- The log does not change the run. -/
theorem outcome_runLoggedFrom :
    (runLoggedFrom load names runner report sources).outcome =
      runFrom load names runner report sources := by
  fun_induction runLoggedFrom load names runner report sources with
  | case1 runner report =>
      rfl
  | case2 runner report source rest failure hload =>
      exact (runFrom_of_error hload names report rest).symm
  | case3 runner report source rest crate hload hstop =>
      exact (runFrom_of_stop hload hstop names report rest).symm
  | case4 runner report source rest crate hload hgo ih =>
      rw [LoggedRun.after, ih, runFrom_of_go hload (Bool.eq_false_iff.2 hgo)]

/-- Crates are loaded in order, and none is passed over. -/
theorem loaded_prefix :
    RunEvent.loaded (runLoggedFrom load names runner report sources).log <+: sources := by
  fun_induction runLoggedFrom load names runner report sources with
  | case1 runner report =>
      exact List.prefix_refl []
  | case2 runner report source rest failure hload =>
      exact List.prefix_append [source] rest
  | case3 runner report source rest crate hload hstop =>
      exact List.prefix_append [source] rest
  | case4 runner report source rest crate hload hgo ih =>
      exact List.cons_prefix_cons.2 ⟨rfl, ih⟩

/-- What is not loaded has no part in a run. -/
theorem runLoggedFrom_congr {load' : σ → Except Failure Crate}
    (h : ∀ source ∈ RunEvent.loaded (runLoggedFrom load names runner report sources).log,
      load' source = load source) :
    runLoggedFrom load' names runner report sources =
      runLoggedFrom load names runner report sources := by
  fun_induction runLoggedFrom load names runner report sources with
  | case1 runner report =>
      rfl
  | case2 runner report source rest failure hload =>
      have hload' := (h source (List.mem_cons_self ..)).trans hload
      simp only [runLoggedFrom, hload']
  | case3 runner report source rest crate hload hstop =>
      have hload' := (h source (List.mem_cons_self ..)).trans hload
      simp only [runLoggedFrom, hload', hstop, if_true]
  | case4 runner report source rest crate hload hgo ih =>
      have hload' := (h source (List.mem_cons_self ..)).trans hload
      have hrest := ih fun source' hmem => h source' (List.mem_cons_of_mem _ hmem)
      simp only [runLoggedFrom, hload', hgo, Bool.false_eq_true, if_false, hrest]

/-- When a crate has been loaded and the flag is set, no other is loaded. -/
theorem loaded_after_load {source : σ} {later : List (RunEvent σ)}
    (hlater : .load source :: later <:+ (runLoggedFrom load names runner report sources).log)
    (hcancelled : RunEvent.AllCancelled later) : RunEvent.loaded later = [] := by
  -- The load is the first event of the log, or it comes after the first crate.
  fun_induction runLoggedFrom load names runner report sources with
  | case1 runner report =>
      cases List.suffix_nil.1 hlater
  | case2 runner report source' rest failure hload =>
      rcases List.suffix_cons_iff.1 hlater with hself | hrest
      · cases hself
        rfl
      · cases List.suffix_nil.1 hrest
  | case3 runner report source' rest crate hload hstop =>
      rcases List.suffix_cons_iff.1 hlater with hself | hrest
      · cases hself
        rfl
      · rcases List.suffix_cons_iff.1 hrest with hask | hnil
        · cases hask
        · cases List.suffix_nil.1 hnil
  | case4 runner report source' rest crate hload hgo ih =>
      rcases List.suffix_cons_iff.1 hlater with hself | hrest
      · cases hself
        -- The answer before this crate was no.
        cases hcancelled false (List.mem_cons_self ..)
      · rcases List.suffix_cons_iff.1 hrest with hask | hrest
        · cases hask
        · rcases List.suffix_cons_iff.1 hrest with hexamine | hnext
          · cases hexamine
          · exact ih hnext

end From

/-- After the flag is set at most one crate is loaded. -/
theorem length_loaded_le (load : σ → Except Failure Crate) (names : Option (List String))
    (runner : Runner) (report : Report) (sources : List σ) {later : List (RunEvent σ)}
    (hlater : later <:+ (runLoggedFrom load names runner report sources).log)
    (hcancelled : RunEvent.AllCancelled later) : (RunEvent.loaded later).length ≤ 1 := by
  cases hloaded : RunEvent.loaded later with
  | nil =>
      exact Nat.zero_le 1
  | cons source more =>
      -- Nothing is loaded after the first crate that is.
      obtain ⟨before, event, after, rfl, -, hevent, rfl⟩ := List.filterMap_eq_cons_iff.1 hloaded
      have hload : event = .load source := by
        cases event <;> simp_all [RunEvent.loaded?]
      subst hload
      have hafter := loaded_after_load load names runner report sources
        ((List.suffix_append before _).trans hlater)
        fun answer hmem => hcancelled answer (List.mem_append_right _ (List.mem_cons_of_mem _ hmem))
      exact Nat.le_of_eq (congrArg (·.length + 1) hafter)

/-- A run loads sources in order, and its outcome depends on no other. After the flag is set it
loads one more at most, and none when one has been loaded that the flag is still to be asked about.
A run whose flag is set when it begins loads the first source, where there is one; it fails where
that cannot be loaded, and reports nothing otherwise. -/
theorem loaded_runLogged (load : σ → Except Failure Crate) (names : Option (List String))
    (runner : Runner) (sources : List σ) :
    let run := runner.runLogged load names sources
    (run.outcome = runner.runAll load names sources ∧ RunEvent.loaded run.log <+: sources) ∧
      (∀ load', (∀ source ∈ RunEvent.loaded run.log, load' source = load source) →
        runner.runAll load' names sources = runner.runAll load names sources) ∧
      (∀ later, later <:+ run.log → RunEvent.AllCancelled later →
        (RunEvent.loaded later).length ≤ 1) ∧
      (∀ source later, .load source :: later <:+ run.log → RunEvent.AllCancelled later →
        RunEvent.loaded later = []) ∧
      (runner.flag.ask.1 = true →
        RunEvent.loaded run.log = sources.take 1 ∧
          (runner.runAll load names sources).1 = sources.head?.elim (.ok {}) fun source =>
            (load source).map fun _ => { cancelled := true }) := by
  intro run
  have houtcome (load : σ → Except Failure Crate) :
      (runner.runLogged load names sources).outcome = runner.runAll load names sources :=
    outcome_runLoggedFrom load names runner {} sources
  refine ⟨⟨houtcome load, loaded_prefix load names runner {} sources⟩, ?_, ?_, ?_, ?_⟩
  · intro load' hagree
    have hrun : runner.runLogged load' names sources = run :=
      runLoggedFrom_congr load names runner {} sources hagree
    rw [← houtcome load', ← houtcome load, hrun]
  · intro later hlater hcancelled
    exact length_loaded_le load names runner {} sources hlater hcancelled
  · intro source later hlater hcancelled
    exact loaded_after_load load names runner {} sources hlater hcancelled
  · -- The flag is asked only when the first source has been loaded.
    intro hset
    rw [← houtcome load]
    simp only [run, runLogged]
    cases sources with
    | nil =>
        exact ⟨rfl, rfl⟩
    | cons source rest =>
        cases hload : load source with
        | error failure =>
            simp [runLoggedFrom, hload, RunEvent.loaded, RunEvent.loaded?, Except.map]
        | ok crate =>
            simp [runLoggedFrom, hload, hset, RunEvent.loaded, RunEvent.loaded?, Except.map]

/-- The flag is set while the first crate is examined. The second source is loaded all the same, and
the third is not. -/
theorem loaded_runLogged_examined :
    let load (source : String) : Except Failure Crate :=
      if source = "a.hir" then .ok ⟨"a.rs", [], []⟩ else .ok ⟨"b.rs", [], []⟩
    let runner : Runner := { registry := .default, flag := .after 1 }
    let sources := ["a.hir", "b.hir", "c.hir"]
    let run := runner.runLogged load none sources
    let later : List (RunEvent String) := [.examine "a.hir", .load "b.hir", .ask true]
    later <:+ run.log ∧ RunEvent.AllCancelled later ∧ RunEvent.loaded later = ["b.hir"] ∧
      (RunEvent.loaded later).length ≤ 1 ∧ RunEvent.loaded run.log <+: sources := by
  intro load runner sources run later
  have hlater : later <:+ run.log := ⟨[.load "a.hir", .ask false], rfl⟩
  have hcancelled : RunEvent.AllCancelled later := by
    intro answer hmem
    simpa [later] using hmem
  obtain ⟨⟨-, hprefix⟩, -, hbound, -⟩ := loaded_runLogged load none runner sources
  exact ⟨hlater, hcancelled, rfl, hbound later hlater hcancelled, hprefix⟩

/-- The flag is set when the run begins, and yet the run looks for the file, which is missing, and
fails. -/
theorem loaded_runLogged_missing :
    let files := Files.ofRead "/" fun _ => .error .missing
    let runner : Runner := { registry := .default, flag := .set }
    let run := runner.runLogged (CommandLine.loadDump files) none ["absent.hir"]
    (∀ question, runner.flag.answer question = true) ∧
      RunEvent.loaded run.log = ["absent.hir"] ∧
        ∃ failure, run.outcome.1 = .error failure ∧ failure.code = .dumpUnreadable := by
  intro files runner run
  exact ⟨fun _ => rfl, rfl, _, rfl, rfl⟩

end Runner
end AssocLint
