import AssocLint.Proofs.Analysis.Findings
import AssocLint.Proofs.Analysis.Order
import AssocLint.Proofs.Analysis.Pool

/-!
# Analyses that are cancelled

The flag may be set at any time while blocks are analysed. Whatever it answers, and in whatever
order several workers ask it, the result accounts for the blocks: those that the flag was not set
for are analysed as a whole, and nothing is known of the others (`accounts_of_outcome`).
-/

namespace AssocLint
namespace Analysis

/-- What the analysis of blocks can give, and the questions that were asked meanwhile: for each the
position of the block, and the answer. -/
inductive Outcome (policy : Policy) (workers : Int) (flag : CancelFlag) (blocks : List ImplBlock) :
    Analysis → List (Nat × Bool) → Prop
  /-- One worker takes the blocks in turn. -/
  | inTurn :
      InTurn workers blocks →
        Outcome policy workers flag blocks (ofBlocks policy workers flag blocks).1
          (flag.turns 0 blocks.length)
  /-- Several workers share out the blocks. -/
  | shared {pool : Pool} :
      ¬ InTurn workers blocks →
        Relation.ReflTransGen (Pool.Step policy workers blocks) (Pool.start flag blocks) pool →
          pool.IsOver → Outcome policy workers flag blocks pool.analysis pool.log

/-- An analysis accounts for blocks, given the questions that were asked about them: it tells in
order the positions of those for which the answer was no, and all findings of these blocks. -/
structure Accounts (policy : Policy) (blocks : List ImplBlock) (log : List (Nat × Bool))
    (analysis : Analysis) : Prop where
  increasing : analysis.analyzed.Pairwise (· < ·)
  mem_analyzed_iff : ∀ position, position ∈ analysis.analyzed ↔ (position, false) ∈ log
  findings_eq : analysis.findings =
    Finding.sort (analysis.analyzed.flatMap (ImplBlock.findingsAt policy blocks))
  total_eq : analysis.total = blocks.length
  total_eq_add : analysis.total = analysis.analyzed.length + analysis.skipped
  isCancelled_iff_skipped : analysis.isCancelled = true ↔ 0 < analysis.skipped
  isCancelled_iff : analysis.isCancelled = true ↔
    ∃ position < blocks.length, position ∉ analysis.analyzed

variable {policy : Policy} {workers : Int} {flag : CancelFlag} {blocks : List ImplBlock}

theorem accounts_ofStarted (policy : Policy) {left : List Bool} {log : List (Nat × Bool)}
    (hlength : left.length = blocks.length)
    (hlog : ∀ position, (position, false) ∈ log ↔ left[position]? = some false) :
    (ofStarted policy blocks left).Accounts policy blocks log where
  increasing := pairwise_analyzed policy blocks left
  mem_analyzed_iff position := by
    rw [Analysis.mem_analyzed_iff hlength, hlog]
  findings_eq := findings_ofStarted policy blocks left
  total_eq := rfl
  total_eq_add := (Nat.add_sub_of_le (length_analyzed_le policy blocks left)).symm
  isCancelled_iff_skipped := by
    rw [isCancelled, decide_eq_true_iff, skipped, Nat.sub_pos_iff_lt]
  isCancelled_iff := isCancelled_ofStarted_iff policy blocks left

/-! ## One worker -/

theorem mem_turns_iff (flag : CancelFlag) (tasks position : Nat) :
    (position, false) ∈ flag.turns 0 tasks ↔
      (flag.askInTurn tasks).1[position]? = some false := by
  obtain ⟨granted, hgrants⟩ := flag.exists_grants tasks
  have hturns : (position, false) ∈ flag.turns 0 tasks ↔ position < granted := by
    rw [hgrants.turns_eq]
    split <;> simp [List.mem_range']
  have hleft : (flag.askInTurn tasks).1[position]? = some false ↔ position < granted := by
    rw [hgrants.askInTurn_fst, List.getElem?_append, List.length_replicate]
    split <;> simp_all [List.getElem?_replicate]
  rw [hturns, hleft]

theorem length_askInTurn (flag : CancelFlag) (tasks : Nat) :
    (flag.askInTurn tasks).1.length = tasks := by
  obtain ⟨granted, hgrants⟩ := flag.exists_grants tasks
  rw [hgrants.askInTurn_fst, List.length_append, List.length_replicate, List.length_replicate,
    Nat.add_sub_of_le hgrants.le]

/-- One worker gets as far as the flag grants. -/
theorem exists_granted (policy : Policy) (flag : CancelFlag) (h : InTurn workers blocks) :
    ∃ granted, flag.Grants blocks.length granted ∧
      (ofBlocks policy workers flag blocks).1.analyzed = List.range granted ∧
        ∀ workers', (ofBlocks policy workers flag blocks).1.findings =
          (ofBlocks policy workers' .clear (blocks.take granted)).1.findings := by
  obtain ⟨granted, hgrants⟩ := flag.exists_grants blocks.length
  have hleft := hgrants.askInTurn_fst
  refine ⟨granted, hgrants, ?_, ?_⟩
  · rw [ofBlocks_inTurn policy flag h, analyzed_of_granted hgrants.le hleft]
  · intro workers'
    rw [ofBlocks_inTurn policy flag h, findings_of_granted hgrants.le hleft,
      findings_ofBlocks_of_isClear policy workers' CancelFlag.isClear_clear]

/-! ## Any number of workers -/

theorem exists_outcome (policy : Policy) (workers : Int) (flag : CancelFlag)
    (blocks : List ImplBlock) :
    ∃ log, Outcome policy workers flag blocks (ofBlocks policy workers flag blocks).1 log := by
  by_cases hturn : InTurn workers blocks
  · exact ⟨_, .inTurn hturn⟩
  · have hworkers : 0 < workers := by
      unfold InTurn at hturn
      omega
    obtain ⟨pool, hrun, hover, hanalysis⟩ :=
      Pool.exists_run_answers policy hworkers flag blocks
    refine ⟨pool.log, ?_⟩
    rw [ofBlocks_shared policy flag hturn, ← hanalysis]
    exact .shared hturn hrun hover

theorem Outcome.accounts {analysis : Analysis} {log : List (Nat × Bool)}
    (h : Outcome policy workers flag blocks analysis log) :
    analysis.Accounts policy blocks log := by
  cases h with
  | inTurn hturn =>
      rw [ofBlocks_inTurn policy flag hturn]
      exact accounts_ofStarted policy (length_askInTurn flag _) (mem_turns_iff flag _)
  | shared _ hrun hover =>
      have hfollows := Pool.Follows.run hrun
      rw [hfollows.analysis_eq hover]
      exact accounts_ofStarted policy hfollows.length_left fun position =>
        hfollows.mem_log_iff_left hover position false

/-- The flag is asked about a block at most once, and gives its answers in turn. -/
theorem Outcome.log {analysis : Analysis} {log : List (Nat × Bool)}
    (h : Outcome policy workers flag blocks analysis log) :
    (log.map (·.1)).Nodup ∧ log.map (·.2) = flag.answers log.length := by
  cases h with
  | inTurn _ =>
      rw [CancelFlag.map_fst_turns]
      exact ⟨List.nodup_range', CancelFlag.map_snd_turns flag 0 _⟩
  | shared _ hrun _ =>
      have hfollows := Pool.Follows.run hrun
      exact ⟨hfollows.nodup_log, hfollows.answers_log⟩

/-- Whatever a flag answers, the analysis of blocks accounts for them. Several workers may go about
it in any order, and ask about every block; one worker gets as far as the flag grants, and the
result is that of the blocks up to there without a flag. -/
theorem accounts_of_outcome (policy : Policy) (workers : Int) (flag : CancelFlag)
    (blocks : List ImplBlock) :
    (∃ log, Outcome policy workers flag blocks (ofBlocks policy workers flag blocks).1 log) ∧
      ∀ analysis log, Outcome policy workers flag blocks analysis log →
        ((log.map (·.1)).Nodup ∧ log.map (·.2) = flag.answers log.length) ∧
          analysis.Accounts policy blocks log ∧
            (¬ InTurn workers blocks → (log.map (·.1)).Perm (List.range blocks.length)) ∧
              (InTurn workers blocks → ∃ granted, flag.Grants blocks.length granted ∧
                analysis.analyzed = List.range granted ∧
                  ∀ workers', analysis.findings =
                    (ofBlocks policy workers' .clear (blocks.take granted)).1.findings) := by
  refine ⟨exists_outcome policy workers flag blocks, ?_⟩
  intro analysis log houtcome
  refine ⟨houtcome.log, houtcome.accounts, ?_, ?_⟩
  · intro hshared
    cases houtcome with
    | inTurn hturn =>
        exact absurd hturn hshared
    | shared _ hrun hover =>
        exact (Pool.Follows.run hrun).perm_log hover
  · intro hturn
    cases houtcome with
    | inTurn _ =>
        exact exists_granted policy flag hturn
    | shared hshared _ _ =>
        exact absurd hturn hshared

/-- Two workers and a flag that is set after one question: the worker that is first asks about the
second block, which is analysed, and the first block is left out. -/
theorem accounts_of_outcome_reordered :
    let state : Reference := .resolved none [⟨"State", none⟩] .type
    let block (function : String) : ImplBlock :=
      { items := [.assocType ⟨"Item", .path state {}, {}⟩,
          .method ⟨function, [], ⟨[], some (.path state {}), {}⟩, none, {}⟩]
        traitRef := none, selfTy := none, span := {} }
    let blocks := [block "f", block "g"]
    let pool :=
      (((Pool.start (.after 1) blocks).ask 1).ask 0).finish 1 ((block "g").analyze .lenient)
    Outcome .lenient 2 (.after 1) blocks pool.analysis pool.log ∧
      pool.analysis.Accounts .lenient blocks [(1, false), (0, true)] ∧
        pool.analysis.analyzed = [1] ∧ pool.analysis.findings.map (·.use.function) = ["g"] := by
  intro state block blocks pool
  -- The second task is taken, then the first one is taken and left out, then the second is done.
  have hrun : Relation.ReflTransGen (Pool.Step .lenient 2 blocks)
      (Pool.start (.after 1) blocks) pool := by
    have hfirst : Pool.Step .lenient 2 blocks (Pool.start (.after 1) blocks)
        ((Pool.start (.after 1) blocks).ask 1) := .ask rfl (by decide)
    have hsecond : Pool.Step .lenient 2 blocks ((Pool.start (.after 1) blocks).ask 1)
        (((Pool.start (.after 1) blocks).ask 1).ask 0) := .ask rfl (by decide)
    exact ((Relation.ReflTransGen.single hfirst).tail hsecond).tail (.finish rfl rfl)
  have hover : pool.IsOver := by
    have htasks : pool.tasks = [.leftOut, .finished ((block "g").analyze .lenient)] := rfl
    simp [Pool.IsOver, htasks, BlockTask.isOver]
  have houtcome : Outcome .lenient 2 (.after 1) blocks pool.analysis pool.log :=
    .shared (by simp [InTurn, blocks]) hrun hover
  have hblock : ((block "g").analyze .lenient).findings =
      [⟨⟨state, .expression, {}, none, "g"⟩, ⟨"Item", state, {}⟩⟩] :=
    ImplBlock.findings_analyze_of_report rfl
  have hfindings : pool.analysis.findings = ((block "g").analyze .lenient).findings := by
    calc
      pool.analysis.findings = Finding.sort (((block "g").analyze .lenient).findings ++ []) := rfl
      _ = ((block "g").analyze .lenient).findings := by
          rw [List.append_nil, hblock, Finding.sort_singleton]
  refine ⟨houtcome, ?_, rfl, ?_⟩
  · exact ((accounts_of_outcome .lenient 2 (.after 1) blocks).2 _ _ houtcome).2.1
  · rw [hfindings, hblock]
    rfl

end Analysis
end AssocLint
