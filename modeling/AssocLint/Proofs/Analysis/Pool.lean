import AssocLint.Proofs.Analysis.Started
import Mathlib.Logic.Relation

/-!
# Several workers at once

Several workers share out the blocks: each block is a task, and a worker that takes a task first
asks the flag, then leaves the block out or analyses it. Tasks are taken and finished in any order,
and no more of them at a time than there are workers. `Pool.Step` is what can happen next, and
`Pool.Follows` what holds however it goes on (`Follows.step`, `Follows.run`).

When all tasks are over, the result is the analysis of the blocks that were not left out, whatever
the order was (`Follows.analysis_eq`). The analysis of blocks one after another is one of the
results (`exists_run_answers`).
-/

namespace AssocLint

/-- How far the task for one block is. -/
inductive BlockTask where
  | waiting
  /-- The flag was not set, and the block is being analysed. -/
  | running
  /-- The flag was set. -/
  | leftOut
  | finished (result : BlockResult)

namespace BlockTask

/-- What the flag answered before the task, where it was asked. -/
def answer? : BlockTask → Option Bool
  | .waiting => none
  | .running | .finished _ => some false
  | .leftOut => some true

def isRunning : BlockTask → Bool
  | .running => true
  | _ => false

def result? : BlockTask → Option BlockResult
  | .finished result => some result
  | _ => none

/-- Whether nothing is left to do about the task. -/
def isOver : BlockTask → Bool
  | .leftOut | .finished _ => true
  | _ => false

end BlockTask

/-- Tasks that several workers share, one for each block in order, with the flag that they ask and
the questions asked so far: the position of each block asked about, and the answer. -/
structure Pool where
  tasks : List BlockTask
  flag : CancelFlag
  log : List (Nat × Bool) := []

namespace Pool

/-- All tasks are waiting. -/
def start (flag : CancelFlag) (blocks : List ImplBlock) : Pool where
  tasks := List.replicate blocks.length .waiting
  flag := flag

/-- A worker takes the task at a position and asks the flag. -/
def ask (pool : Pool) (position : Nat) : Pool where
  tasks := pool.tasks.set position (if pool.flag.ask.1 then .leftOut else .running)
  flag := pool.flag.ask.2
  log := pool.log ++ [(position, pool.flag.ask.1)]

/-- A worker is done with the task at a position. -/
def finish (pool : Pool) (position : Nat) (result : BlockResult) : Pool :=
  { pool with tasks := pool.tasks.set position (.finished result) }

/-- What can happen next to the tasks for blocks. -/
inductive Step (policy : Policy) (workers : Int) (blocks : List ImplBlock) : Pool → Pool → Prop
  | ask {pool : Pool} {position : Nat} :
      pool.tasks[position]? = some .waiting → pool.tasks.countP BlockTask.isRunning < workers →
        Step policy workers blocks pool (pool.ask position)
  | finish {pool : Pool} {position : Nat} {block : ImplBlock} :
      pool.tasks[position]? = some .running → blocks[position]? = some block →
        Step policy workers blocks pool (pool.finish position (block.analyze policy))

def IsOver (pool : Pool) : Prop :=
  ∀ task ∈ pool.tasks, task.isOver = true

/-- The results so far, merged. -/
def analysis (pool : Pool) : Analysis where
  findings := Finding.sort ((pool.tasks.filterMap BlockTask.result?).flatMap (·.findings))
  total := pool.tasks.length
  analyzed := (pool.tasks.zipIdx.filter (·.1.result?.isSome)).map (·.2)

/-- For each block, whether it was left out. -/
def left (pool : Pool) : List Bool :=
  pool.tasks.map fun task => task.answer? == some true

/-! ## What holds of every run -/

/-- What holds of the tasks for blocks when a flag is asked: it is asked about each block at most
once, the tasks go on as it answers, and their results are those of the blocks. -/
structure Follows (policy : Policy) (flag : CancelFlag) (blocks : List ImplBlock) (pool : Pool) :
    Prop where
  length_tasks : pool.tasks.length = blocks.length
  result_eq : ∀ (position : Nat) (result : BlockResult),
    pool.tasks[position]? = some (.finished result) →
      blocks[position]?.map (ImplBlock.analyze policy) = some result
  mem_log_iff : ∀ (position : Nat) (answer : Bool), (position, answer) ∈ pool.log ↔
    pool.tasks[position]?.bind BlockTask.answer? = some answer
  nodup_log : (pool.log.map (·.1)).Nodup
  answers_log : pool.log.map (·.2) = flag.answers pool.log.length
  flag_eq : pool.flag = { flag with asked := flag.asked + pool.log.length }

namespace Follows

variable {policy : Policy} {workers : Int} {flag : CancelFlag} {blocks : List ImplBlock}
  {pool pool' : Pool} {position : Nat}

theorem start (policy : Policy) (flag : CancelFlag) (blocks : List ImplBlock) :
    (Pool.start flag blocks).Follows policy flag blocks where
  length_tasks := List.length_replicate
  result_eq position result h := by
    have hwaiting := List.eq_of_mem_replicate (List.mem_of_getElem? h)
    cases hwaiting
  mem_log_iff position answer := by
    simp only [Pool.start, List.not_mem_nil, List.getElem?_replicate, false_iff]
    split <;> simp [BlockTask.answer?]
  nodup_log := List.nodup_nil
  answers_log := rfl
  flag_eq := rfl

theorem ask (h : pool.Follows policy flag blocks)
    (hwaiting : pool.tasks[position]? = some .waiting) :
    (pool.ask position).Follows policy flag blocks where
  length_tasks := by
    simpa [Pool.ask] using h.length_tasks
  result_eq position' result hresult := by
    by_cases hposition : position = position'
    · subst hposition
      obtain ⟨hbound, -⟩ := List.getElem?_eq_some_iff.1 hwaiting
      simp only [Pool.ask, List.getElem?_set_self hbound] at hresult
      split at hresult <;> simp at hresult
    · simp only [Pool.ask, List.getElem?_set_ne hposition] at hresult
      exact h.result_eq position' result hresult
  mem_log_iff position' answer := by
    simp only [Pool.ask, List.mem_append, List.mem_singleton, Prod.mk.injEq,
      h.mem_log_iff position' answer]
    by_cases hposition : position = position'
    · subst hposition
      obtain ⟨hbound, -⟩ := List.getElem?_eq_some_iff.1 hwaiting
      rw [List.getElem?_set_self hbound, hwaiting]
      cases pool.flag.ask.1 <;> simp [BlockTask.answer?, eq_comm]
    · rw [List.getElem?_set_ne hposition]
      simp [Ne.symm hposition]
  nodup_log := by
    -- The task has been waiting, so the flag has not been asked about it.
    have hnew (answer : Bool) : (position, answer) ∉ pool.log := by
      rw [h.mem_log_iff, hwaiting]
      simp [BlockTask.answer?]
    simp only [Pool.ask, List.map_append, List.map_cons, List.map_nil]
    refine List.nodup_append.2 ⟨h.nodup_log, List.pairwise_singleton _ _, ?_⟩
    rintro position' hposition' _ hself rfl
    obtain ⟨⟨position'', answer⟩, hmem, rfl⟩ := List.mem_map.1 hposition'
    exact hnew answer (List.mem_singleton.1 hself ▸ hmem)
  answers_log := by
    have hanswer : pool.flag.ask.1 = flag.answer (flag.asked + pool.log.length) := by
      rw [h.flag_eq]
      rfl
    simp only [Pool.ask, List.map_append, List.map_cons, List.map_nil, List.length_append,
      List.length_singleton, CancelFlag.answers_concat, h.answers_log, hanswer]
  flag_eq := by
    simp only [Pool.ask, h.flag_eq, CancelFlag.ask, List.length_append, List.length_singleton,
      Nat.add_assoc]

theorem finish {block : ImplBlock} (h : pool.Follows policy flag blocks)
    (hrunning : pool.tasks[position]? = some .running) (hblock : blocks[position]? = some block) :
    (pool.finish position (block.analyze policy)).Follows policy flag blocks where
  length_tasks := by
    simpa [Pool.finish] using h.length_tasks
  result_eq position' result hresult := by
    by_cases hposition : position = position'
    · subst hposition
      obtain ⟨hbound, -⟩ := List.getElem?_eq_some_iff.1 hrunning
      simp only [Pool.finish, List.getElem?_set_self hbound, Option.some.injEq,
        BlockTask.finished.injEq] at hresult
      rw [hblock, Option.map_some, hresult]
    · simp only [Pool.finish, List.getElem?_set_ne hposition] at hresult
      exact h.result_eq position' result hresult
  mem_log_iff position' answer := by
    simp only [Pool.finish, h.mem_log_iff position' answer]
    by_cases hposition : position = position'
    · subst hposition
      obtain ⟨hbound, -⟩ := List.getElem?_eq_some_iff.1 hrunning
      rw [List.getElem?_set_self hbound, hrunning]
      rfl
    · rw [List.getElem?_set_ne hposition]
  nodup_log := h.nodup_log
  answers_log := h.answers_log
  flag_eq := h.flag_eq

theorem step (h : pool.Follows policy flag blocks)
    (hstep : Step policy workers blocks pool pool') : pool'.Follows policy flag blocks := by
  cases hstep with
  | ask hwaiting _ =>
      exact h.ask hwaiting
  | finish hrunning hblock =>
      exact h.finish hrunning hblock

theorem run (hrun : Relation.ReflTransGen (Step policy workers blocks) (Pool.start flag blocks)
    pool) : pool.Follows policy flag blocks := by
  induction hrun with
  | refl =>
      exact start policy flag blocks
  | tail _ hstep ih =>
      exact ih.step hstep

end Follows

/-! ## The result -/

/-- The task for a block when it is over. -/
def overTask (policy : Policy) (block : ImplBlock) (isLeft : Bool) : BlockTask :=
  if isLeft then .leftOut else .finished (block.analyze policy)

/-- Tasks that are over have the results of the blocks that are not left out, at their
positions. -/
theorem results_overTasks (policy : Policy) (blocks : List ImplBlock) (left : List Bool)
    (start : Nat) :
    let tasks := List.zipWith (overTask policy) blocks left
    let started := ((blocks.zipIdx start).zip left).filterMap fun (block, isLeft) =>
      if isLeft then none else some block
    tasks.filterMap BlockTask.result? = started.map (·.1.analyze policy) ∧
      ((tasks.zipIdx start).filter (·.1.result?.isSome)).map (·.2) = started.map (·.2) := by
  induction blocks generalizing left start with
  | nil =>
      exact ⟨rfl, rfl⟩
  | cons block rest ih =>
      cases left with
      | nil =>
          exact ⟨rfl, rfl⟩
      | cons isLeft left =>
          obtain ⟨hresults, hpositions⟩ := ih left (start + 1)
          cases isLeft with
          | true =>
              exact ⟨hresults, hpositions⟩
          | false =>
              exact ⟨congrArg (block.analyze policy :: ·) hresults,
                congrArg (start :: ·) hpositions⟩

namespace Follows

variable {policy : Policy} {workers : Int} {flag : CancelFlag} {blocks : List ImplBlock}
  {pool : Pool}

theorem tasks_eq (h : pool.Follows policy flag blocks) (hover : pool.IsOver) :
    pool.tasks = List.zipWith (overTask policy) blocks pool.left := by
  apply List.ext_getElem?
  intro position
  rw [List.getElem?_zipWith, left, List.getElem?_map]
  cases htask : pool.tasks[position]? with
  | none =>
      cases blocks[position]? <;> rfl
  | some task =>
      obtain ⟨hbound, -⟩ := List.getElem?_eq_some_iff.1 htask
      obtain ⟨block, hblock⟩ : ∃ block, blocks[position]? = some block :=
        ⟨_, List.getElem?_eq_getElem (h.length_tasks ▸ hbound)⟩
      have htaskOver := hover task (List.mem_of_getElem? htask)
      cases task with
      | waiting | running =>
          cases htaskOver
      | leftOut =>
          rw [hblock]
          rfl
      | finished result =>
          have hresult := h.result_eq position result htask
          rw [hblock] at hresult ⊢
          cases hresult
          rfl

/-- However the tasks went on, the result is the analysis of the blocks that were not left out. -/
theorem analysis_eq (h : pool.Follows policy flag blocks) (hover : pool.IsOver) :
    pool.analysis = Analysis.ofStarted policy blocks pool.left := by
  obtain ⟨hresults, hpositions⟩ := results_overTasks policy blocks pool.left 0
  have htasks := h.tasks_eq hover
  simp only [← htasks] at hresults hpositions
  simp only [analysis, Analysis.ofStarted, Analysis.started, hresults, hpositions,
    h.length_tasks, List.flatMap_map]

/-- When the tasks are over, the flag has been asked about each block. -/
theorem mem_log_iff_left (h : pool.Follows policy flag blocks) (hover : pool.IsOver)
    (position : Nat) (answer : Bool) :
    (position, answer) ∈ pool.log ↔ pool.left[position]? = some answer := by
  rw [h.mem_log_iff, left, List.getElem?_map]
  cases htask : pool.tasks[position]? with
  | none =>
      rfl
  | some task =>
      have htaskOver := hover task (List.mem_of_getElem? htask)
      cases task with
      | waiting | running =>
          cases htaskOver
      | leftOut | finished =>
          cases answer <;> simp [BlockTask.answer?]

theorem length_left (h : pool.Follows policy flag blocks) : pool.left.length = blocks.length := by
  rw [left, List.length_map, h.length_tasks]

theorem perm_log (h : pool.Follows policy flag blocks) (hover : pool.IsOver) :
    (pool.log.map (·.1)).Perm (List.range blocks.length) := by
  apply (List.perm_ext_iff_of_nodup h.nodup_log List.nodup_range).2
  intro position
  rw [List.mem_range, ← h.length_left]
  constructor
  · intro hmem
    obtain ⟨⟨position', answer⟩, hasked, rfl⟩ := List.mem_map.1 hmem
    have hleft := (h.mem_log_iff_left hover position' answer).1 hasked
    exact (List.getElem?_eq_some_iff.1 hleft).1
  · intro hbound
    have hleft := List.getElem?_eq_getElem hbound
    exact List.mem_map.2 ⟨_, (h.mem_log_iff_left hover position _).2 hleft, rfl⟩

end Follows

/-! ## One block after another -/

section InOrder

variable (policy : Policy) {workers : Int} {blocks : List ImplBlock} (hworkers : 0 < workers)
include hworkers

/-- The first task that is waiting can be gone through, from the question to the end. -/
theorem exists_run_first {pool : Pool} {ended : List BlockTask} {waiting : Nat} {block : ImplBlock}
    (hover : ∀ task ∈ ended, task.isOver = true)
    (htasks : pool.tasks = ended ++ List.replicate (waiting + 1) .waiting)
    (hblock : blocks[ended.length]? = some block) :
    ∃ task pool', task.isOver = true ∧
      Relation.ReflTransGen (Step policy workers blocks) pool pool' ∧
        pool'.tasks = ended ++ task :: List.replicate waiting .waiting ∧
          pool'.log.map (·.1) = pool.log.map (·.1) ++ [ended.length] := by
  have hset (task task' : BlockTask) :
      (ended ++ task :: List.replicate waiting .waiting).set ended.length task' =
        ended ++ task' :: List.replicate waiting .waiting := by
    simp
  have hwaiting : pool.tasks[ended.length]? = some .waiting := by
    simp [htasks, List.replicate_succ]
  -- No task is running: those in front are over and the others wait.
  have hfree : (pool.tasks.countP BlockTask.isRunning : Int) < workers := by
    have hnone : pool.tasks.countP BlockTask.isRunning = 0 := by
      rw [htasks, List.countP_eq_zero]
      intro task htask
      rcases List.mem_append.1 htask with hmem | hmem
      · have htaskOver := hover task hmem
        cases task <;> simp_all [BlockTask.isOver, BlockTask.isRunning]
      · rw [List.eq_of_mem_replicate hmem]
        simp [BlockTask.isRunning]
    omega
  have hask : Step policy workers blocks pool (pool.ask ended.length) := .ask hwaiting hfree
  cases hanswer : pool.flag.ask.1 with
  | true =>
      refine ⟨.leftOut, pool.ask ended.length, rfl, .single hask, ?_, ?_⟩
      · simp only [ask, hanswer, if_true, htasks, List.replicate_succ, hset]
      · simp [ask]
  | false =>
      have hasked : (pool.ask ended.length).tasks =
          ended ++ .running :: List.replicate waiting .waiting := by
        simp only [ask, hanswer, Bool.false_eq_true, if_false, htasks, List.replicate_succ, hset]
      have hrunning : (pool.ask ended.length).tasks[ended.length]? = some .running := by
        simp [hasked]
      have hfinish : Step policy workers blocks (pool.ask ended.length)
          ((pool.ask ended.length).finish ended.length (block.analyze policy)) :=
        .finish hrunning hblock
      refine ⟨.finished (block.analyze policy), _, rfl, .head hask (.single hfinish), ?_, ?_⟩
      · simp only [finish, hasked, hset]
      · simp [finish, ask]

/-- Tasks can be gone through in the order of their positions. -/
theorem exists_run_inOrder (pool : Pool) (ended : List BlockTask) {waiting : Nat}
    (hover : ∀ task ∈ ended, task.isOver = true)
    (htasks : pool.tasks = ended ++ List.replicate waiting .waiting)
    (hlength : ended.length + waiting = blocks.length) :
    ∃ pool', Relation.ReflTransGen (Step policy workers blocks) pool pool' ∧ pool'.IsOver ∧
      pool'.log.map (·.1) = pool.log.map (·.1) ++ List.range' ended.length waiting := by
  induction waiting generalizing pool ended with
  | zero =>
      refine ⟨pool, .refl, ?_, ?_⟩
      · simpa [IsOver, htasks] using hover
      · simp
  | succ waiting ih =>
      have hbound : ended.length < blocks.length := by
        omega
      obtain ⟨task, pool', htask, hfirst, htasks', hlog⟩ :=
        exists_run_first policy hworkers hover htasks (List.getElem?_eq_getElem hbound)
      have hover' : ∀ task' ∈ ended ++ [task], task'.isOver = true := by
        intro task' hmem
        rcases List.mem_append.1 hmem with hmem | hmem
        · exact hover task' hmem
        · rwa [List.mem_singleton.1 hmem]
      obtain ⟨pool'', hrest, hpool'', hlog'⟩ := ih pool' (ended ++ [task]) hover'
        (by rw [htasks', List.append_assoc, List.singleton_append])
        (by rw [List.length_append, List.length_singleton]; omega)
      refine ⟨pool'', hfirst.trans hrest, hpool'', ?_⟩
      rw [hlog', hlog, List.append_assoc, List.length_append, List.length_singleton,
        List.singleton_append, List.range'_succ]

/-- The analysis of blocks one after another is what several workers can give. -/
theorem exists_run_answers (flag : CancelFlag) (blocks : List ImplBlock) :
    ∃ pool, Relation.ReflTransGen (Step policy workers blocks) (start flag blocks) pool ∧
      pool.IsOver ∧
        pool.analysis = Analysis.ofStarted policy blocks (flag.answers blocks.length) := by
  obtain ⟨pool, hrun, hover, hlog⟩ :=
    exists_run_inOrder policy hworkers (start flag blocks) [] (List.forall_mem_nil _) rfl
      (Nat.zero_add _)
  have hfollows := Follows.run hrun
  refine ⟨pool, hrun, hover, ?_⟩
  rw [hfollows.analysis_eq hover]
  congr 1
  -- The questions are asked in the order of the blocks.
  have hpositions : pool.log.map (·.1) = List.range blocks.length := by
    simpa [start, List.range_eq_range'] using hlog
  have hcount : pool.log.length = blocks.length := by
    simpa using congrArg List.length hpositions
  have hanswers := hfollows.answers_log
  rw [hcount] at hanswers
  have hzip := List.zip_of_prod hpositions hanswers
  apply List.ext_getElem?
  intro position
  apply Option.ext
  intro answer
  rw [← hfollows.mem_log_iff_left hover, hzip, List.mem_iff_getElem?]
  constructor
  · rintro ⟨question, hquestion⟩
    obtain ⟨hposition, hanswer⟩ := List.getElem?_zip_eq_some.1 hquestion
    have hsame : question = position := by
      obtain ⟨hbound, hself⟩ := List.getElem?_eq_some_iff.1 hposition
      rwa [List.getElem_range hbound] at hself
    subst hsame
    exact hanswer
  · intro hanswer
    obtain ⟨hbound, -⟩ := List.getElem?_eq_some_iff.1 hanswer
    rw [CancelFlag.length_answers] at hbound
    exact ⟨position, List.getElem?_zip_eq_some.2 ⟨List.getElem?_range hbound, hanswer⟩⟩

end InOrder

end Pool
end AssocLint
