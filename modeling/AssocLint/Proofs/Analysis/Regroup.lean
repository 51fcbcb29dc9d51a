import AssocLint.Proofs.Analysis.Findings
import AssocLint.Proofs.Analysis.Order
import AssocLint.Proofs.Analysis.Started

/-!
# Blocks in groups and in any order

Blocks share nothing, so they can be analysed in groups and in any order: what matters is put right
by the order of findings. The findings of a group of blocks are those of its blocks, and the
findings of two groups put in order are those of both together. In another order of the blocks only
findings with equal keys change places (`findings_regroup`).
-/

namespace AssocLint
namespace Analysis

/-- Where the flag is never set, the findings of two lists of blocks, put in order, are those of
the lists together. They are the findings of the blocks, each as often as there, and blocks in
another order have the same findings with the same sequence of keys. Numbers of workers do not
matter. -/
theorem findings_regroup (policy : Policy) (workers workers' workers'' : Int)
    (blocks blocks' : List ImplBlock) :
    (ofBlocks policy workers .clear (blocks ++ blocks')).1.findings =
        Finding.sort ((ofBlocks policy workers' .clear blocks).1.findings ++
          (ofBlocks policy workers'' .clear blocks').1.findings) ∧
      (ofBlocks policy workers .clear blocks).1.findings.Perm
        (blocks.flatMap fun block => (block.analyze policy).findings) ∧
      (blocks.Perm blocks' →
        (ofBlocks policy workers .clear blocks).1.findings.Perm
            (ofBlocks policy workers' .clear blocks').1.findings ∧
          (ofBlocks policy workers .clear blocks).1.findings.map Finding.key =
            (ofBlocks policy workers' .clear blocks').1.findings.map Finding.key) := by
  have hfindings (workers : Int) := findings_ofBlocks_of_isClear policy workers
    CancelFlag.isClear_clear
  refine ⟨?_, ?_, ?_⟩
  · simp only [hfindings, List.flatMap_append, Finding.sort_append_sort]
  · rw [hfindings]
    exact Finding.sort_perm _
  · intro hperm
    have hall := hperm.flatMap_right fun block => (block.analyze policy).findings
    rw [hfindings, hfindings]
    constructor
    · exact (Finding.sort_perm _).trans (hall.trans (Finding.sort_perm _).symm)
    · exact Finding.map_key_sort_of_perm hall

/-- Two blocks with one finding each at the same place: in the other order of the blocks the two
findings change places, and the keys do not show it. -/
theorem findings_regroup_tied :
    let state : Reference := .resolved none [⟨"State", none⟩] .type
    let block (function : String) : ImplBlock :=
      { items := [.assocType ⟨"Item", .path state {}, {}⟩,
          .method ⟨function, [], ⟨[], some (.path state {}), {}⟩, none, {}⟩]
        traitRef := none, selfTy := none, span := {} }
    let findings (blocks : List ImplBlock) := (ofBlocks .lenient 1 .clear blocks).1.findings
    [block "f", block "g"].Perm [block "g", block "f"] ∧
      (findings [block "f", block "g"]).map (·.use.function) = ["f", "g"] ∧
      (findings [block "g", block "f"]).map (·.use.function) = ["g", "f"] ∧
      (findings [block "f", block "g"]).map Finding.key =
        (findings [block "g", block "f"]).map Finding.key := by
  intro state block findings
  let finding (function : String) : Finding :=
    ⟨⟨state, .expression, {}, none, function⟩, ⟨"Item", state, {}⟩⟩
  have hpair (function function' : String) :
      findings [block function, block function'] = [finding function, finding function'] := by
    have hblock (function : String) :
        ((block function).analyze .lenient).findings = [finding function] :=
      ImplBlock.findings_analyze_of_report rfl
    have htied : (finding function).order (finding function') = .eq :=
      Finding.order_eq_eq_iff.2 rfl
    simp only [findings, findings_ofBlocks_of_isClear .lenient 1 CancelFlag.isClear_clear,
      List.flatMap_cons, List.flatMap_nil, hblock, List.append_nil, List.singleton_append]
    apply Finding.sort_of_pairwise
    simp [htied]
  have hperm : [block "f", block "g"].Perm [block "g", block "f"] := List.Perm.swap _ _ []
  refine ⟨hperm, ?_, ?_, ((findings_regroup .lenient 1 1 1 _ _).2.2 hperm).2⟩
  · rw [hpair]
    rfl
  · rw [hpair]
    rfl

end Analysis
end AssocLint
