import AssocLint.Analysis
import AssocLint.Proofs.Cancel.Answers
import Mathlib.Data.List.Basic
import Mathlib.Data.List.Perm.Subperm
import Mathlib.Data.List.Range

/-!
# Blocks that are started

An analysis is made of the blocks that are not left out. It tells their positions in order, each
once (`pairwise_analyzed`, `mem_analyzed_iff`), its findings are all those of these blocks and no
others (`findings_ofStarted`), and it is cancelled exactly where a block is missing
(`isCancelled_ofStarted_iff`). Where the flag is never set, none is
(`findings_ofBlocks_of_isClear`).
-/

namespace AssocLint

/-- The findings of the block at a position. -/
def ImplBlock.findingsAt (policy : Policy) (blocks : List ImplBlock) (position : Nat) :
    List Finding :=
  blocks[position]?.elim [] fun block => (block.analyze policy).findings

namespace Analysis

variable {policy : Policy} {blocks : List ImplBlock} {left : List Bool}

/-! ## Positions -/

theorem mem_started_iff {block : ImplBlock} {position : Nat} :
    (block, position) ∈ started blocks left ↔
      blocks[position]? = some block ∧ left[position]? = some false := by
  unfold started
  rw [List.mem_filterMap]
  constructor
  · rintro ⟨⟨entry, isLeft⟩, hmem, hentry⟩
    obtain ⟨index, hindex⟩ := List.mem_iff_getElem?.1 hmem
    obtain ⟨hblock, hleft⟩ := List.getElem?_zip_eq_some.1 hindex
    cases isLeft with
    | true =>
        simp at hentry
    | false =>
        simp only [Bool.false_eq_true, if_false, Option.some.injEq] at hentry
        subst hentry
        rw [List.getElem?_zipIdx, Option.map_eq_some_iff] at hblock
        obtain ⟨block', hblock', hpair⟩ := hblock
        simp only [Nat.zero_add, Prod.mk.injEq] at hpair
        obtain ⟨rfl, rfl⟩ := hpair
        exact ⟨hblock', hleft⟩
  · rintro ⟨hblock, hleft⟩
    refine ⟨((block, position), false), List.mem_iff_getElem?.2 ⟨position, ?_⟩, rfl⟩
    rw [List.getElem?_zip_eq_some, List.getElem?_zipIdx, hblock]
    exact ⟨by simp, hleft⟩

theorem filterMap_zip_sublist {α : Type} (entries : List α) (left : List Bool) :
    ((entries.zip left).filterMap fun (entry, isLeft) =>
      if isLeft then none else some entry).Sublist entries := by
  induction entries generalizing left with
  | nil =>
      exact List.Sublist.refl []
  | cons entry rest ih =>
      cases left with
      | nil =>
          exact List.nil_sublist _
      | cons isLeft left =>
          cases isLeft with
          | true =>
              exact (ih left).cons entry
          | false =>
              exact (ih left).cons_cons entry

theorem analyzed_sublist (policy : Policy) (blocks : List ImplBlock) (left : List Bool) :
    (ofStarted policy blocks left).analyzed.Sublist (List.range blocks.length) := by
  have hnumbered := (filterMap_zip_sublist blocks.zipIdx left).map (·.2)
  rwa [List.zipIdx_map_snd, ← List.range_eq_range'] at hnumbered

/-- The positions of the blocks that are analysed are in order, each once. -/
theorem pairwise_analyzed (policy : Policy) (blocks : List ImplBlock) (left : List Bool) :
    (ofStarted policy blocks left).analyzed.Pairwise (· < ·) :=
  List.pairwise_lt_range.sublist (analyzed_sublist policy blocks left)

theorem mem_analyzed_iff (h : left.length = blocks.length) {position : Nat} :
    position ∈ (ofStarted policy blocks left).analyzed ↔ left[position]? = some false := by
  unfold ofStarted
  rw [List.mem_map]
  constructor
  · rintro ⟨⟨block, position'⟩, hmem, rfl⟩
    exact (mem_started_iff.1 hmem).2
  · intro hleft
    obtain ⟨hbound, -⟩ := List.getElem?_eq_some_iff.1 hleft
    obtain ⟨block, hblock⟩ : ∃ block, blocks[position]? = some block :=
      ⟨_, List.getElem?_eq_getElem (h ▸ hbound)⟩
    exact ⟨(block, position), mem_started_iff.2 ⟨hblock, hleft⟩, rfl⟩

/-! ## Findings -/

/-- The findings of an analysis are those of the blocks at its positions. -/
theorem findings_ofStarted (policy : Policy) (blocks : List ImplBlock) (left : List Bool) :
    (ofStarted policy blocks left).findings =
      Finding.sort ((ofStarted policy blocks left).analyzed.flatMap
        (ImplBlock.findingsAt policy blocks)) := by
  simp only [ofStarted, List.flatMap_map]
  congr 1
  apply List.flatMap_congr
  rintro ⟨block, position⟩ hmem
  have hblock := (mem_started_iff.1 hmem).1
  simp [ImplBlock.findingsAt, hblock]

/-! ## Counts -/

theorem length_analyzed_le (policy : Policy) (blocks : List ImplBlock) (left : List Bool) :
    (ofStarted policy blocks left).analyzed.length ≤ blocks.length := by
  have hlength := (analyzed_sublist policy blocks left).length_le
  rwa [List.length_range] at hlength

/-- An analysis is cancelled exactly where a block is missing from it. -/
theorem isCancelled_ofStarted_iff (policy : Policy) (blocks : List ImplBlock)
    (left : List Bool) :
    (ofStarted policy blocks left).isCancelled = true ↔
      ∃ position < blocks.length, position ∉ (ofStarted policy blocks left).analyzed := by
  have hsublist := analyzed_sublist policy blocks left
  have htotal : (ofStarted policy blocks left).total = (List.range blocks.length).length :=
    List.length_range.symm
  rw [isCancelled, decide_eq_true_iff, htotal]
  constructor
  · intro hshort
    by_contra hall
    push Not at hall
    -- Without a missing position the analysis has all of them.
    have hsubset : List.range blocks.length ⊆ (ofStarted policy blocks left).analyzed := by
      intro position hposition
      exact hall position (List.mem_range.1 hposition)
    have hlength := (List.subperm_of_subset List.nodup_range hsubset).length_le
    omega
  · rintro ⟨position, hposition, hmissing⟩
    refine lt_of_le_of_ne hsublist.length_le ?_
    intro hlength
    have hall := hsublist.eq_of_length hlength
    exact hmissing (hall ▸ List.mem_range.2 hposition)

/-! ## Blocks that are granted -/

theorem filterMap_zip_granted {α : Type} (entries : List α) {granted : Nat}
    (h : granted ≤ entries.length) :
    ((entries.zip (List.replicate granted false ++
        List.replicate (entries.length - granted) true)).filterMap fun (entry, isLeft) =>
      if isLeft then none else some entry) = entries.take granted := by
  induction entries generalizing granted with
  | nil =>
      rw [List.zip_nil_left, List.take_nil, List.filterMap_nil]
  | cons entry rest ih =>
      cases granted with
      | zero =>
          have hrest := ih (Nat.zero_le _)
          simp only [List.replicate_zero, List.nil_append, Nat.sub_zero, List.take_zero,
            List.length_cons, List.replicate_succ, List.zip_cons_cons, List.filterMap_cons,
            if_true] at hrest ⊢
          exact hrest
      | succ granted =>
          have hrest := ih (Nat.le_of_succ_le_succ h)
          simp only [List.length_cons, Nat.add_sub_add_right, List.replicate_succ,
            List.cons_append, List.zip_cons_cons, List.filterMap_cons, Bool.false_eq_true,
            if_false, hrest, List.take_succ_cons]

section Granted

variable {granted : Nat} (hgranted : granted ≤ blocks.length)
  (hleft : left = List.replicate granted false ++ List.replicate (blocks.length - granted) true)
include hgranted hleft

theorem started_of_granted : started blocks left = blocks.zipIdx.take granted := by
  have hentries :=
    filterMap_zip_granted blocks.zipIdx (hgranted.trans_eq List.length_zipIdx.symm)
  rwa [List.length_zipIdx, ← hleft] at hentries

/-- Blocks of which the first ones are granted are analysed as far as these go. -/
theorem analyzed_of_granted (policy : Policy) :
    (ofStarted policy blocks left).analyzed = List.range granted := by
  simp only [ofStarted, started_of_granted hgranted hleft, List.map_take, List.zipIdx_map_snd,
    ← List.range_eq_range', List.take_range, Nat.min_eq_left hgranted]

/-- Blocks of which the first ones are granted give the findings of these. -/
theorem findings_of_granted (policy : Policy) :
    (ofStarted policy blocks left).findings =
      Finding.sort ((blocks.take granted).flatMap fun block =>
        (block.analyze policy).findings) := by
  have hblocks : (blocks.zipIdx.take granted).map (·.1) = blocks.take granted := by
    rw [List.map_take, List.zipIdx_map_fst]
  simp only [ofStarted, started_of_granted hgranted hleft, ← hblocks, List.flatMap_map]

end Granted

/-! ## One worker and several -/

/-- Whether the blocks are taken in turn: there is one worker, or nothing to share out. -/
def InTurn (workers : Int) (blocks : List ImplBlock) : Prop :=
  workers ≤ 1 ∨ blocks.length ≤ 1

theorem ofBlocks_inTurn (policy : Policy) {workers : Int} (flag : CancelFlag)
    (h : InTurn workers blocks) :
    (ofBlocks policy workers flag blocks).1 =
      ofStarted policy blocks (flag.askInTurn blocks.length).1 := by
  have hcondition : (decide (workers ≤ 1) || decide (blocks.length ≤ 1)) = true := by
    simpa [InTurn] using h
  simp only [ofBlocks, hcondition, if_true]

theorem ofBlocks_shared (policy : Policy) {workers : Int} (flag : CancelFlag)
    (h : ¬ InTurn workers blocks) :
    (ofBlocks policy workers flag blocks).1 =
      ofStarted policy blocks (flag.answers blocks.length) := by
  have hcondition : (decide (workers ≤ 1) || decide (blocks.length ≤ 1)) = false := by
    simpa [InTurn] using h
  simp only [ofBlocks, hcondition, Bool.false_eq_true, if_false, CancelFlag.askEach_fst]

/-- What a flag answers to the questions does not change while it is asked. -/
theorem answer_ofBlocks (policy : Policy) (workers : Int) (flag : CancelFlag)
    (blocks : List ImplBlock) :
    (ofBlocks policy workers flag blocks).2.answer = flag.answer := by
  simp only [ofBlocks]
  split
  · exact flag.answer_askInTurn blocks.length
  · exact flag.answer_askEach blocks.length

/-- Where the flag is never set, blocks give all their findings, however many workers there
are. -/
theorem findings_ofBlocks_of_isClear (policy : Policy) (workers : Int) {flag : CancelFlag}
    (h : flag.IsClear) (blocks : List ImplBlock) :
    (ofBlocks policy workers flag blocks).1.findings =
      Finding.sort (blocks.flatMap fun block => (block.analyze policy).findings) := by
  have hall (left : List Bool) (hleft : left = List.replicate blocks.length false) :
      (ofStarted policy blocks left).findings =
        Finding.sort (blocks.flatMap fun block => (block.analyze policy).findings) := by
    have hgranted : left = List.replicate blocks.length false ++
        List.replicate (blocks.length - blocks.length) true := by
      rw [hleft, Nat.sub_self, List.replicate_zero, List.append_nil]
    have hfindings := findings_of_granted (Nat.le_refl _) hgranted policy
    rwa [List.take_length] at hfindings
  by_cases hturn : InTurn workers blocks
  · rw [ofBlocks_inTurn policy flag hturn]
    exact hall _ (h.askInTurn_fst blocks.length)
  · rw [ofBlocks_shared policy flag hturn]
    exact hall _ (h.answers_eq blocks.length)

end Analysis
end AssocLint
