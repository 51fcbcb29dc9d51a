import AssocLint.Analysis
import Mathlib.Data.List.Basic

/-!
# The order of findings

Findings are put in order by a total order on their places and names, and the sort is stable. So it
does not matter whether findings are left out before or after they are put in order
(`filter_sortEntries`), nor whether parts of a list are put in order before the whole list is
(`sort_append_sort`), and further findings do not disturb those that are there
(`sort_sublist_sort`). The order looks at the keys of findings alone, and findings with equal keys
are those that it does not tell apart (`order_congr`, `order_eq_eq_iff`). So the keys of findings in
order do not depend on how the findings stood before (`map_key_sort_of_perm`).
-/

namespace AssocLint

section SortedList

variable {α : Type} {le : α → α → Bool} (total : ∀ a b, le a b || le b a)
include total

theorem mem_of_filter_tied {l l' : List α} {a : α}
    (h : (l.filter fun b => le a b && le b a) = l'.filter fun b => le a b && le b a)
    (ha : a ∈ l) : a ∈ l' := by
  have hrefl : le a a = true := by
    simpa using total a a
  have hmem : a ∈ l.filter fun b => le a b && le b a :=
    List.mem_filter.2 ⟨ha, by simp [hrefl]⟩
  exact (List.mem_filter.1 (h ▸ hmem)).1

/-- A sorted list is known by what it holds at each place of the order. -/
theorem eq_of_filter_tied {l l' : List α} (h : l.Pairwise fun a b => le a b)
    (h' : l'.Pairwise fun a b => le a b)
    (htied : ∀ a, (l.filter fun b => le a b && le b a) = l'.filter fun b => le a b && le b a) :
    l = l' := by
  have hrefl (a : α) : le a a = true := by
    simpa using total a a
  induction l generalizing l' with
  | nil =>
      apply (List.eq_nil_iff_forall_not_mem.2 _).symm
      intro a ha
      exact List.not_mem_nil (mem_of_filter_tied total (htied a).symm ha)
  | cons a l ih =>
      have ha : a ∈ l' := mem_of_filter_tied total (htied a) List.mem_cons_self
      cases l' with
      | nil =>
          exact absurd ha List.not_mem_nil
      | cons b l' =>
          have hb : b ∈ a :: l := mem_of_filter_tied total (htied b).symm List.mem_cons_self
          -- The first elements stand at one place, where both lists begin with the same one.
          have hba : le b a = true := by
            rcases List.mem_cons.1 ha with rfl | ha
            · exact hrefl a
            · exact List.rel_of_pairwise_cons h' ha
          have hab : le a b = true := by
            rcases List.mem_cons.1 hb with rfl | hb
            · exact hrefl b
            · exact List.rel_of_pairwise_cons h hb
          have hfirst := htied a
          simp only [List.filter_cons, hrefl, hab, hba, Bool.and_self, if_true] at hfirst
          obtain rfl := List.head_eq_of_cons_eq hfirst
          congr 1
          refine ih h.of_cons h'.of_cons ?_
          intro c
          have hc := htied c
          simp only [List.filter_cons] at hc
          split at hc
          · exact List.tail_eq_of_cons_eq hc
          · exact hc

end SortedList

section StableSort

variable {α : Type} {le : α → α → Bool} (trans : ∀ a b c, le a b → le b c → le a c)
  (total : ∀ a b, le a b || le b a)
include trans total

/-- A new first element divides a sorted list into what has to stand before it and the rest. -/
theorem exists_mergeSort_cons (a : α) (l : List α) :
    ∃ before after, (a :: l).mergeSort le = before ++ a :: after ∧
      l.mergeSort le = before ++ after ∧ before = (l.mergeSort le).filter (!le a ·) ∧
        after = (l.mergeSort le).filter (le a ·) := by
  obtain ⟨before, after, hcons, hl, hbefore⟩ := List.mergeSort_cons trans total a l
  have hsorted := List.pairwise_mergeSort trans total (a :: l)
  rw [hcons] at hsorted
  have hafter : ∀ b ∈ after, le a b = true :=
    (List.pairwise_cons.1 (List.pairwise_append.1 hsorted).2.1).1
  refine ⟨before, after, hcons, hl, ?_, ?_⟩
  · have hnone : after.filter (!le a ·) = [] := by
      apply List.filter_eq_nil_iff.2
      intro b hb
      simp [hafter b hb]
    rw [hl, List.filter_append, hnone, List.append_nil, List.filter_eq_self.2 hbefore]
  · have hnone : before.filter (le a ·) = [] := by
      apply List.filter_eq_nil_iff.2
      intro b hb
      simpa using hbefore b hb
    rw [hl, List.filter_append, hnone, List.nil_append, List.filter_eq_self.2 hafter]

theorem filter_mergeSort (p : α → Bool) (l : List α) :
    (l.mergeSort le).filter p = (l.filter p).mergeSort le := by
  induction l with
  | nil =>
      simp
  | cons a l ih =>
      obtain ⟨before, after, hcons, hl, hbefore, hafter⟩ := exists_mergeSort_cons trans total a l
      cases hp : p a with
      | false =>
          rw [hcons, List.filter_append, List.filter_cons_of_neg (by simp [hp]),
            ← List.filter_append, ← hl, ih, List.filter_cons_of_neg (by simp [hp])]
      | true =>
          obtain ⟨before', after', hcons', -, hbefore', hafter'⟩ :=
            exists_mergeSort_cons trans total a (l.filter p)
          -- Both lists are divided by the same element in the same way.
          have hb : before.filter p = before' := by
            rw [hbefore, hbefore', ← ih, List.filter_filter, List.filter_filter]
            simp only [Bool.and_comm]
          have ha : after.filter p = after' := by
            rw [hafter, hafter', ← ih, List.filter_filter, List.filter_filter]
            simp only [Bool.and_comm]
          rw [hcons, List.filter_append, List.filter_cons_of_pos hp, hb, ha,
            List.filter_cons_of_pos hp, hcons']

/-- What is taken from a list stands in the sorted list as it stands when it is sorted alone. -/
theorem mergeSort_sublist_mergeSort {l l' : List α} (h : l.Sublist l') :
    (l.mergeSort le).Sublist (l'.mergeSort le) := by
  induction h with
  | slnil =>
      exact List.Sublist.refl _
  | @cons _ l' a _ ih =>
      obtain ⟨before, after, hcons, hl', -, -⟩ := exists_mergeSort_cons trans total a l'
      rw [hl'] at ih
      rw [hcons]
      exact ih.middle a
  | @cons_cons l l' a _ ih =>
      obtain ⟨before, after, hcons, -, hbefore, hafter⟩ := exists_mergeSort_cons trans total a l
      obtain ⟨before', after', hcons', -, hbefore', hafter'⟩ :=
        exists_mergeSort_cons trans total a l'
      rw [hcons, hcons', hbefore, hafter, hbefore', hafter']
      exact (ih.filter _).append ((ih.filter _).cons_cons a)

/-- Elements at one place of the order stay in the order in which they stood. -/
theorem filter_tied_mergeSort (a : α) (l : List α) :
    (l.mergeSort le).filter (fun b => le a b && le b a) =
      l.filter fun b => le a b && le b a := by
  rw [filter_mergeSort trans total]
  apply List.mergeSort_of_pairwise
  apply List.pairwise_of_forall_mem_list
  intro b hb c hc
  have hba := (Bool.and_eq_true_iff.1 (List.mem_filter.1 hb).2).2
  have hac := (Bool.and_eq_true_iff.1 (List.mem_filter.1 hc).2).1
  exact trans b a c hba hac

/-- Lists that are sorted one by one, and then together, are sorted as if they were one. -/
theorem mergeSort_append_mergeSort (l l' : List α) :
    (l.mergeSort le ++ l'.mergeSort le).mergeSort le = (l ++ l').mergeSort le := by
  apply eq_of_filter_tied total
  · exact List.pairwise_mergeSort trans total _
  · exact List.pairwise_mergeSort trans total _
  · intro a
    simp only [filter_tied_mergeSort trans total, List.filter_append]

end StableSort

namespace Finding

/-- Findings are compared key by key. -/
theorem order_eq_compareLex :
    order =
      compareLex (compareOn (·.use.span.file)) (compareLex (compareOn (·.use.span.lo))
        (compareLex (compareOn (·.use.span.hi)) (compareLex (compareOn (·.use.span.line))
          (compareLex (compareOn (·.use.span.column)) (compareLex (compareOn (·.binding.name))
            (compareOn (·.use.kind.rank))))))) :=
  rfl

instance : Std.TransCmp order := by
  rw [order_eq_compareLex]
  infer_instance

theorem isLE_order_trans (finding finding' finding'' : Finding) :
    (finding.order finding').isLE → (finding'.order finding'').isLE →
      (finding.order finding'').isLE :=
  Std.TransCmp.isLE_trans

theorem isLE_order_total (finding finding' : Finding) :
    (finding.order finding').isLE || (finding'.order finding).isLE := by
  have hswap : finding'.order finding = (finding.order finding').swap :=
    Std.OrientedCmp.eq_swap
  rw [hswap]
  cases finding.order finding' <;> rfl

theorem pairwise_sort (findings : List Finding) :
    (sort findings).Pairwise fun finding finding' => (finding.order finding').isLE :=
  List.pairwise_mergeSort isLE_order_trans isLE_order_total findings

theorem sort_of_pairwise {findings : List Finding}
    (h : findings.Pairwise fun finding finding' => (finding.order finding').isLE) :
    sort findings = findings :=
  List.mergeSort_of_pairwise h

theorem sort_singleton (finding : Finding) : sort [finding] = [finding] :=
  List.mergeSort_singleton finding

theorem sort_perm (findings : List Finding) : (sort findings).Perm findings :=
  List.mergeSort_perm _ _

theorem sort_sublist_sort {findings findings' : List Finding} (h : findings.Sublist findings') :
    (sort findings).Sublist (sort findings') :=
  mergeSort_sublist_mergeSort isLE_order_trans isLE_order_total h

/-- Findings that are in order in two parts are put in order like all of them together. -/
theorem sort_append_sort (findings findings' : List Finding) :
    sort (sort findings ++ sort findings') = sort (findings ++ findings') :=
  mergeSort_append_mergeSort isLE_order_trans isLE_order_total findings findings'

/-! ## Keys -/

/-- What the order of findings looks at: file, byte offsets, line and column, the name of the
binding and the kind of the occurrence. -/
structure Key where
  file : String
  lo : Int
  hi : Int
  line : Int
  column : Int
  name : String
  kind : OccurrenceKind
  deriving DecidableEq

def key (finding : Finding) : Key where
  file := finding.use.span.file
  lo := finding.use.span.lo
  hi := finding.use.span.hi
  line := finding.use.span.line
  column := finding.use.span.column
  name := finding.binding.name
  kind := finding.use.kind

theorem order_eq_eq_iff {finding finding' : Finding} :
    finding.order finding' = .eq ↔ finding.key = finding'.key := by
  have hrank : finding.use.kind.rank = finding'.use.kind.rank ↔
      finding.use.kind = finding'.use.kind := by
    cases finding.use.kind <;> cases finding'.use.kind <;> decide
  simp only [order, Ordering.then_eq_eq, Std.LawfulEqCmp.compare_eq_iff_eq, hrank, key,
    Key.mk.injEq]

theorem order_congr {finding finding' other other' : Finding} (h : finding.key = other.key)
    (h' : finding'.key = other'.key) : finding.order finding' = other.order other' := by
  simp only [key, Key.mk.injEq] at h h'
  obtain ⟨hfile, hlo, hhi, hline, hcolumn, hname, hkind⟩ := h
  obtain ⟨hfile', hlo', hhi', hline', hcolumn', hname', hkind'⟩ := h'
  simp only [order, hfile, hlo, hhi, hline, hcolumn, hname, hkind, hfile', hlo', hhi', hline',
    hcolumn', hname', hkind']

/-- The order of keys: that of the findings that have them. -/
def Key.IsBefore (key key' : Key) : Prop :=
  ∃ finding finding' : Finding,
    finding.key = key ∧ finding'.key = key' ∧ (finding.order finding').isLE

theorem Key.IsBefore.antisymm {key key' : Key} (h : key.IsBefore key') (h' : key'.IsBefore key) :
    key = key' := by
  obtain ⟨finding, finding', rfl, rfl, hle⟩ := h
  obtain ⟨other', other, hother', hother, hle'⟩ := h'
  have hswap : finding'.order finding = (finding.order finding').swap :=
    Std.OrientedCmp.eq_swap
  rw [order_congr hother' hother, hswap] at hle'
  apply order_eq_eq_iff.1
  cases horder : finding.order finding' with
  | lt =>
      simp [horder] at hle'
  | eq =>
      rfl
  | gt =>
      simp [horder] at hle

/-- Findings with the same keys have them in the same sequence when they are put in order. -/
theorem map_key_sort_of_perm {findings findings' : List Finding} (h : findings.Perm findings') :
    (sort findings).map key = (sort findings').map key := by
  have hsorted (findings : List Finding) : ((sort findings).map key).Pairwise Key.IsBefore := by
    apply List.pairwise_map.2
    exact (pairwise_sort findings).imp fun hle => ⟨_, _, rfl, rfl, hle⟩
  have hperm : (sort findings).Perm (sort findings') :=
    (sort_perm findings).trans (h.trans (sort_perm findings').symm)
  apply (hperm.map key).eq_of_pairwise _ (hsorted findings) (hsorted findings')
  intro key key' _ _
  exact Key.IsBefore.antisymm

/-! ## Entries -/

/-- Findings in order, each with something that goes with it. -/
def sortEntries {α : Type} (entries : List (Finding × α)) : List (Finding × α) :=
  entries.mergeSort fun entry entry' => (entry.1.order entry'.1).isLE

theorem map_sortEntries {α : Type} (entries : List (Finding × α)) :
    (sortEntries entries).map (·.1) = sort (entries.map (·.1)) := by
  apply List.map_mergeSort
  intro entry _ entry' _
  rfl

theorem filter_sortEntries {α : Type} (entries : List (Finding × α)) (p : Finding × α → Bool) :
    (sortEntries entries).filter p = sortEntries (entries.filter p) := by
  apply filter_mergeSort
  · intro entry entry' entry''
    exact isLE_order_trans entry.1 entry'.1 entry''.1
  · intro entry entry'
    exact isLE_order_total entry.1 entry'.1

end Finding
end AssocLint
