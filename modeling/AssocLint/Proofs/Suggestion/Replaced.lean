import AssocLint.Proofs.Suggestion.Rewritten

/-!
# What a plan replaces

A plan for a path does away with its own occurrence and with those inside its type portion, which
stand next to each other at its beginning; the paths of the member after it stay
(`Occurrence.withNested_eq_append`). `Plan.replaces` says by numbers which occurrences go.

An index reports on rewritten occurrences what it reports on those that stay
(`Rewritten.filterMap_report`), as long as the plan touches reported paths only: of what a plan
puts in the place of these, nothing is ever reported.
-/

namespace AssocLint

/-! ## Parts of a use -/

namespace Occurrence

/-- The use of a path inside the path that is used. -/
def inside (use : Occurrence) (ref : Reference) : Occurrence :=
  { use with ref, kind := .ascription, subject := none }

/-- The use of a path, with those of the paths inside its type portion. -/
def ofPortion (use : Occurrence) : List Occurrence :=
  use :: use.ref.portionPaths.map use.inside

/-- The uses of the paths among the generic arguments of the member that a path names. -/
def ofMember (use : Occurrence) : List Occurrence :=
  use.ref.memberPaths.map use.inside

theorem withNested_eq_append (use : Occurrence) :
    use.withNested = use.ofPortion ++ use.ofMember := by
  have hnested := congrArg (List.map use.inside) use.ref.nested_eq_append
  rw [List.map_append] at hnested
  exact congrArg (use :: ·) hnested

theorem uses_eq_add (use : Occurrence) :
    use.ref.uses = use.ofPortion.length + use.ofMember.length := by
  rw [← length_withNested, withNested_eq_append, List.length_append]

end Occurrence

namespace BindingIndex

theorem isSome_typePortion?_of_report {index : BindingIndex} {policy : Policy} {use : Occurrence}
    (h : (index.report policy use).isSome) : use.ref.typePortion?.isSome := by
  cases hportion : use.ref.typePortion? with
  | none =>
      simp [report, firstMatch, candidates, hportion] at h
  | some portion =>
      rfl

/-- After its type portion has been replaced, a reported path is not reported, and neither is what
has come with the replacement. -/
theorem filterMap_report_throughAssociated {index : BindingIndex} {policy : Policy}
    {use : Occurrence} (h : (index.report policy use).isSome) (name : String) :
    { use with ref := use.ref.throughAssociated name }.withNested.filterMap (index.report policy) =
      use.ofMember.filterMap (index.report policy) := by
  have hportion := isSome_typePortion?_of_report h
  rcases Reference.nested_throughAssociated hportion name with ⟨route, hnested, hroute⟩
  have hhead : index.report policy { use with ref := use.ref.throughAssociated name } = none :=
    index.report_eq_none_of_isOnRoute policy (Reference.isOnRoute_throughAssociated hportion name)
  have hinner : (route.map use.inside).filterMap (index.report policy) = [] := by
    apply List.filterMap_eq_nil_iff.2
    intro inner hmem
    rcases List.mem_map.1 hmem with ⟨ref, href, rfl⟩
    exact index.report_eq_none_of_isOnRoute policy (hroute ref href)
  have hwithNested : { use with ref := use.ref.throughAssociated name }.withNested =
      { use with ref := use.ref.throughAssociated name } ::
        (route.map use.inside ++ use.ofMember) := by
    rw [Occurrence.ofMember, ← List.map_append, ← hnested]
    rfl
  rw [hwithNested, List.filterMap_cons_none hhead, List.filterMap_append, hinner, List.nil_append]

end BindingIndex

/-! ## What a plan replaces -/

namespace Plan

/-- Whether an occurrence goes away: its path is planned to be written in another way, or it is
inside the type portion of such a path. -/
def replaces (plan : Plan) (uses : List Occurrence) (number : Nat) : Bool :=
  (List.range (number + 1)).any fun start =>
    (plan start).isSome && uses[start]?.any fun use => number < start + use.ofPortion.length

/-- Of consecutive occurrences those that stay, the first of them having the given number. -/
def remaining (plan : Plan) (uses : List Occurrence) (number : Nat) (part : List Occurrence) :
    List Occurrence :=
  ((part.zipIdx number).filter fun entry => !plan.replaces uses entry.2).map (·.1)

/-- A plan for some occurrences that touches only reported uses in expressions and patterns. -/
def IsFor (plan : Plan) (uses : List Occurrence) (report : Occurrence → Option Finding) : Prop :=
  ∀ number, (plan number).isSome →
    ∃ use, uses[number]? = some use ∧ use.kind ≠ .ascription ∧ (report use).isSome

/-- What is replaced for the occurrences before a number ends before it. -/
def IsSettled (plan : Plan) (uses : List Occurrence) (number : Nat) : Prop :=
  ∀ start < number, ∀ use, uses[start]? = some use → (plan start).isSome →
    start + use.ofPortion.length ≤ number

variable {plan : Plan} {uses : List Occurrence}

theorem replaces_eq_true_iff {number : Nat} :
    plan.replaces uses number = true ↔
      ∃ start ≤ number, (plan start).isSome ∧
        ∃ use, uses[start]? = some use ∧ number < start + use.ofPortion.length := by
  simp only [replaces, List.any_eq_true, List.mem_range, Nat.lt_succ_iff, Bool.and_eq_true,
    Option.any_eq_true, decide_eq_true_eq]

/-- Nothing is replaced between what is settled and the next planned path. -/
theorem IsSettled.replaces_eq_false {number number' : Nat} (h : plan.IsSettled uses number)
    (hle : number ≤ number')
    (hnone : ∀ start, number ≤ start → start ≤ number' → plan start = none) :
    plan.replaces uses number' = false := by
  rw [← Bool.not_eq_true, replaces_eq_true_iff]
  rintro ⟨start, hstart, hplanned, use, huse, hlt⟩
  -- A path that is planned earlier does not reach as far, and later there is none.
  rcases Nat.lt_or_ge start number with hbefore | hafter
  · have hend := h start hbefore use huse hplanned
    omega
  · rw [hnone start hafter hstart] at hplanned
    cases hplanned

theorem IsSettled.succ {number : Nat} (h : plan.IsSettled uses number)
    (hnone : plan number = none) : plan.IsSettled uses (number + 1) := by
  intro start hstart use huse hplanned
  rcases Nat.lt_succ_iff_lt_or_eq.1 hstart with hbefore | rfl
  · have hend := h start hbefore use huse hplanned
    omega
  · rw [hnone] at hplanned
    cases hplanned

/-- What is replaced for one path is settled where its type portion ends, and stays so as long as no
other path is planned. -/
theorem IsSettled.of_portion {number number' : Nat} {use : Occurrence}
    (h : plan.IsSettled uses number) (huse : uses[number]? = some use)
    (hle : number + use.ofPortion.length ≤ number')
    (hnone : ∀ start, number < start → start < number' → plan start = none) :
    plan.IsSettled uses number' := by
  intro start hstart use' huse' hplanned
  rcases Nat.lt_trichotomy start number with hbefore | rfl | hafter
  · have hend := h start hbefore use' huse' hplanned
    omega
  · cases huse.symm.trans huse'
    exact hle
  · rw [hnone start hafter hstart] at hplanned
    cases hplanned

theorem remaining_append (number : Nat) (part part' : List Occurrence) :
    plan.remaining uses number (part ++ part') =
      plan.remaining uses number part ++ plan.remaining uses (number + part.length) part' := by
  simp only [remaining, List.zipIdx_append, List.filter_append, List.map_append]

theorem remaining_eq_nil {number : Nat} {part : List Occurrence}
    (h : ∀ number', number ≤ number' → number' < number + part.length →
      plan.replaces uses number' = true) : plan.remaining uses number part = [] := by
  apply List.map_eq_nil_iff.2
  apply List.filter_eq_nil_iff.2
  rintro ⟨use, number'⟩ hmem
  rcases List.mem_zipIdx hmem with ⟨hle, hlt, -⟩
  simp only [h number' hle hlt, Bool.not_true, Bool.false_eq_true, not_false_iff]

theorem remaining_eq_self {number : Nat} {part : List Occurrence}
    (h : ∀ number', number ≤ number' → number' < number + part.length →
      plan.replaces uses number' = false) : plan.remaining uses number part = part := by
  have hall : ((part.zipIdx number).filter fun entry => !plan.replaces uses entry.2) =
      part.zipIdx number := by
    apply List.filter_eq_self.2
    rintro ⟨use, number'⟩ hmem
    rcases List.mem_zipIdx hmem with ⟨hle, hlt, -⟩
    simp only [h number' hle hlt, Bool.not_false]
  rw [remaining, hall]
  exact List.zipIdx_map_fst number part

/-! ### Parts of a walk -/

theorem IsSettled.remaining_singleton {number : Nat} (h : plan.IsSettled uses number)
    (hnone : plan number = none) (use : Occurrence) :
    plan.remaining uses number [use] = [use] := by
  apply remaining_eq_self
  intro number' hle hlt
  have heq : number' = number := by
    simp only [List.length_singleton] at hlt
    omega
  refine h.replaces_eq_false hle ?_
  intro start hstart hstart'
  have hstart'' : start = number := by omega
  rw [hstart'', hnone]

/-- Of the use of a planned path there remain the uses of the paths of its member. -/
theorem IsSettled.remaining_withNested {number : Nat} {use : Occurrence}
    (h : plan.IsSettled uses number) (huse : uses[number]? = some use)
    (hplanned : (plan number).isSome)
    (hinside : ∀ start, number < start → start < number + use.ref.uses → plan start = none) :
    plan.remaining uses number use.withNested = use.ofMember := by
  have hlength := use.uses_eq_add
  have hportion : plan.remaining uses number use.ofPortion = [] := by
    apply remaining_eq_nil
    intro number' hle hlt
    exact replaces_eq_true_iff.2 ⟨number, hle, hplanned, use, huse, hlt⟩
  have hsettled : plan.IsSettled uses (number + use.ofPortion.length) := by
    refine h.of_portion huse (Nat.le_refl _) ?_
    intro start hstart hstart'
    exact hinside start hstart (by omega)
  have hmember : plan.remaining uses (number + use.ofPortion.length) use.ofMember =
      use.ofMember := by
    apply remaining_eq_self
    intro number' hle hlt
    refine hsettled.replaces_eq_false hle ?_
    intro start hstart hstart'
    -- The type portion holds the path itself, so its member does not begin where the path does.
    have hpositive : 0 < use.ofPortion.length := Nat.succ_pos _
    exact hinside start (by omega) (by omega)
  calc
    plan.remaining uses number use.withNested
        = plan.remaining uses number (use.ofPortion ++ use.ofMember) := by
          rw [use.withNested_eq_append]
    _ = plan.remaining uses number use.ofPortion ++
          plan.remaining uses (number + use.ofPortion.length) use.ofMember :=
          remaining_append number use.ofPortion use.ofMember
    _ = use.ofMember := by
          rw [hportion, hmember, List.nil_append]

end Plan

/-! ## What is still reported -/

section Reports

variable {index : BindingIndex} {policy : Policy} {plan : Plan}
  {uses before after : List Occurrence} {use : Occurrence}

theorem getElem?_length_of_eq_append_cons (huses : uses = before ++ use :: after) :
    uses[before.length]? = some use := by
  rw [huses, List.getElem?_append_right (Nat.le_refl _), Nat.sub_self]
  rfl

theorem Plan.IsFor.eq_none_of_ascription (h : plan.IsFor uses (index.report policy)) {number : Nat}
    (huse : uses[number]? = some use) (hascription : use.kind = .ascription) :
    plan number = none := by
  cases hplan : plan number with
  | none =>
      rfl
  | some name =>
      rcases h number (by simp [hplan]) with ⟨use', huse', hkind, -⟩
      cases huse.symm.trans huse'
      exact (hkind hascription).elim

/-- Nothing is planned for the paths inside a path. -/
theorem Plan.IsFor.eq_none_of_inside (h : plan.IsFor uses (index.report policy))
    (huses : uses = before ++ (use.withNested ++ after)) {number : Nat}
    (hlt : before.length < number) (hlt' : number < before.length + use.ref.uses) :
    plan number = none := by
  obtain ⟨offset, rfl⟩ := Nat.exists_eq_add_of_lt hlt
  have hoffset : offset < use.withNested.tail.length := by
    rw [List.length_tail, Occurrence.length_withNested]
    omega
  have hinner : uses[before.length + offset + 1]? = some use.withNested.tail[offset] := by
    have hsub : before.length + offset + 1 - before.length = offset + 1 := by omega
    rw [huses, List.getElem?_append_right (by omega), hsub,
      List.getElem?_append_left (by rw [Occurrence.length_withNested]; omega)]
    exact List.getElem?_eq_getElem hoffset
  exact h.eq_none_of_ascription hinner
    (Occurrence.kind_of_mem_tail_withNested (List.getElem_mem hoffset))

/-- The findings on rewritten occurrences are those on the occurrences that stay. -/
theorem Rewritten.filterMap_report {old new : List Occurrence} {number number' : Nat}
    (h : Rewritten plan number old new number') (huses : uses = before ++ old)
    (hnumber : before.length = number) (hfor : plan.IsFor uses (index.report policy))
    (hsettled : plan.IsSettled uses number) :
    new.filterMap (index.report policy) =
      (plan.remaining uses number old).filterMap (index.report policy) := by
  -- By induction on how the occurrences were rewritten. Those gone by stand before those left, and
  -- what is replaced for them ends before these begin.
  induction h generalizing before with
  | done number =>
      rfl
  | @keep number number' use old new unplanned rest ih =>
      have huse : uses[number]? = some use := hnumber ▸ getElem?_length_of_eq_append_cons huses
      have hnone : plan number = none := by
        rcases unplanned with hascription | hnone
        · exact hfor.eq_none_of_ascription huse hascription
        · exact hnone
      have hrest := @ih (before ++ [use]) (by simpa using huses) (by simp [hnumber])
        (hsettled.succ hnone)
      have hold : plan.remaining uses number (use :: old) =
          use :: plan.remaining uses (number + 1) old := by
        rw [← List.singleton_append, Plan.remaining_append, hsettled.remaining_singleton hnone]
        rfl
      rw [hold, List.filterMap_cons, List.filterMap_cons, hrest]
  | @write number number' use name old new written planned rest ih =>
      have huse : uses[number]? = some use := hnumber ▸ getElem?_length_of_eq_append_cons huses
      have hplanned : (plan number).isSome := by
        rw [planned]
        rfl
      -- Only reported paths are planned, so they have a type portion to be replaced.
      have hreport : (index.report policy use).isSome := by
        rcases hfor number hplanned with ⟨use', huse', -, hreport⟩
        cases huse.symm.trans huse'
        exact hreport
      have hinside (start : Nat) (hlt : number < start) (hlt' : start < number + use.ref.uses) :
          plan start = none :=
        hfor.eq_none_of_inside huses (hnumber ▸ hlt) (hnumber ▸ hlt')
      have hlength := use.uses_eq_add
      have hrest := @ih (before ++ use.withNested) (by rw [huses, List.append_assoc])
        (by rw [List.length_append, Occurrence.length_withNested, hnumber])
        (hsettled.of_portion huse (by omega) hinside)
      rw [Plan.remaining_append, hsettled.remaining_withNested huse hplanned hinside,
        Occurrence.length_withNested, List.filterMap_append, List.filterMap_append, hrest,
        BindingIndex.filterMap_report_throughAssociated hreport name]

end Reports
end AssocLint
