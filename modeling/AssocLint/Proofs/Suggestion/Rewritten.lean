import AssocLint.Proofs.Suggestion.Follow

/-!
# Occurrences that follow a plan

What a plan makes of a list of occurrences (`Rewritten`): the uses of paths that it names are
written in another way, and everything else stays, in its place. That is what it makes of the
occurrences in a pattern (`Pattern.rewritten_follow`), and the pattern declares the same names as
before (`Pattern.bound_follow`).
-/

namespace AssocLint

/-! ## Rewritten occurrences -/

/-- One list of occurrences, numbered from the first number to the second, is another with the paths
of expressions and patterns written as planned. -/
inductive Rewritten (plan : Plan) : Nat → List Occurrence → List Occurrence → Nat → Prop where
  | done (number : Nat) : Rewritten plan number [] [] number
  | keep {number number' : Nat} {use : Occurrence} {old new : List Occurrence}
      (unplanned : use.kind = .ascription ∨ plan number = none)
      (rest : Rewritten plan (number + 1) old new number') :
      Rewritten plan number (use :: old) (use :: new) number'
  | write {number number' : Nat} {use : Occurrence} {name : String} {old new : List Occurrence}
      (written : use.kind ≠ .ascription) (planned : plan number = some name)
      (rest : Rewritten plan (number + use.ref.uses) old new number') :
      Rewritten plan number (use.withNested ++ old)
        ({ use with ref := use.ref.throughAssociated name }.withNested ++ new) number'

namespace Rewritten

variable {plan : Plan} {number number' number'' : Nat} {old old' new new' : List Occurrence}

theorem append (first : Rewritten plan number old new number')
    (second : Rewritten plan number' old' new' number'') :
    Rewritten plan number (old ++ old') (new ++ new') number'' := by
  induction first with
  | done number =>
      exact second
  | keep unplanned rest ih =>
      exact keep unplanned (ih second)
  | write written planned rest ih =>
      rw [List.append_assoc, List.append_assoc]
      exact write written planned (ih second)

/-- Types that are written out stay as they are. -/
theorem refl_of_ascriptions (plan : Plan) (number : Nat) (uses : List Occurrence)
    (h : ∀ use ∈ uses, use.kind = .ascription) :
    Rewritten plan number uses uses (number + uses.length) := by
  induction uses generalizing number with
  | nil =>
      exact done number
  | cons use rest ih =>
      have hrest := ih (number + 1) fun inner hinner => h inner (List.mem_cons_of_mem _ hinner)
      rw [Nat.add_right_comm, Nat.add_assoc] at hrest
      exact keep (Or.inl (h use List.mem_cons_self)) hrest

end Rewritten

namespace Occurrence

theorem length_withNested (use : Occurrence) : use.withNested.length = use.ref.uses := by
  simp [withNested, Reference.uses]

theorem kind_of_mem_tail_withNested {use inner : Occurrence} (h : inner ∈ use.withNested.tail) :
    inner.kind = .ascription := by
  rcases List.mem_map.1 h with ⟨ref, -, rfl⟩
  rfl

end Occurrence

namespace Ty

theorem kind_of_mem_occurrences {function : String} {ty : Ty} {use : Occurrence}
    (h : use ∈ ty.occurrences function) : use.kind = .ascription := by
  rcases List.mem_flatMap.1 h with ⟨⟨written, span⟩, -, huse⟩
  rcases List.mem_cons.1 huse with rfl | hnested
  · rfl
  · exact Occurrence.kind_of_mem_tail_withNested hnested

theorem length_occurrences (function : String) (ty : Ty) :
    (ty.occurrences function).length = ty.uses := by
  simp only [occurrences, uses, List.length_flatMap, Occurrence.length_withNested,
    Reference.uses, List.length_cons]

end Ty

/-! ## Passes -/

namespace Plan

theorem run_pure {α : Type} (node : α) (number : Nat) :
    (pure node : Pass α).run number = (node, number) :=
  rfl

theorem run_bind {α β : Type} (pass : Pass α) (next : α → Pass β) (number : Nat) :
    (pass >>= next).run number = (next (pass.run number).1).run (pass.run number).2 :=
  rfl

theorem run_write (plan : Plan) (ref : Reference) (number : Nat) :
    (plan.write ref).run number =
      ((plan number).elim ref ref.throughAssociated, number + ref.uses) :=
  rfl

end Plan

/-- A path is written as planned, and nothing else about its use changes. -/
theorem Rewritten.of_write (plan : Plan) (number : Nat) (ref : Reference) (kind : OccurrenceKind)
    (h : kind ≠ .ascription) (span : Span) (subject : Option Ty) (function : String) :
    Rewritten plan number (Occurrence.withNested ⟨ref, kind, span, subject, function⟩)
      (Occurrence.withNested ⟨((plan.write ref).run number).1, kind, span, subject, function⟩)
      ((plan.write ref).run number).2 := by
  let use : Occurrence := ⟨ref, kind, span, subject, function⟩
  cases hplan : plan number with
  | none =>
      -- The path is kept, and so is what is inside it.
      have hnested := refl_of_ascriptions plan (number + 1) use.withNested.tail fun inner hinner =>
        Occurrence.kind_of_mem_tail_withNested hinner
      have hend : number + 1 + use.withNested.tail.length = number + ref.uses := by
        rw [List.length_tail, Occurrence.length_withNested]
        simp only [Reference.uses, use]
        omega
      rw [hend] at hnested
      rw [Plan.run_write, hplan]
      exact keep (Or.inr hplan) hnested
  | some name =>
      have hwrite : Rewritten plan number (use.withNested ++ []) _ _ :=
        write h hplan (done (number + ref.uses))
      rw [List.append_nil, List.append_nil] at hwrite
      rw [Plan.run_write, hplan]
      exact hwrite

/-! ## Patterns -/

section Patterns

variable (plan : Plan) (function : String)

theorem length_followPatterns (pats : List Pattern) (number : Nat) :
    ((followPatterns plan pats).run number).1.length = pats.length := by
  induction pats generalizing number with
  | nil =>
      rfl
  | cons pat rest ih =>
      simp only [followPatterns, Plan.run_bind, Plan.run_pure, List.length_cons, ih]

-- By recursion on the pattern. Patterns and types are taken in pairs, which rewriting does not
-- shift: as many patterns come out of it as go in.

mutual

theorem Pattern.rewritten_follow :
    ∀ (pat : Pattern) (ty : Option Ty) (number : Nat),
      Rewritten plan number (pat.occurrences function ty)
        (((pat.follow plan).run number).1.occurrences function ty)
        ((pat.follow plan).run number).2
  | .wild _, _, number => .done number
  | .lit _ _, _, number => .done number
  | .binding _ none _ _ _, _, number => .done number
  | .binding _ (some sub) _ _ _, ty, number => sub.rewritten_follow ty number
  | .path ref span, ty, number => .of_write plan number ref .pattern nofun span ty function
  | .tupleStruct ref elems span, ty, number => by
      have hwrite := Rewritten.of_write plan number ref .pattern nofun span ty function
      simp only [Pattern.follow, Plan.run_bind, Plan.run_pure, Pattern.occurrences,
        length_followPatterns]
      exact hwrite.append (rewritten_followPatterns elems _ _ (by simp))
  | .struct ref fields _ span, ty, number =>
      (Rewritten.of_write plan number ref .pattern nofun span ty function).append
        (rewritten_followFieldPatterns fields _)
  | .tuple elems _, ty, number => by
      simp only [Pattern.follow, Plan.run_bind, Plan.run_pure, Pattern.occurrences,
        length_followPatterns]
      exact rewritten_followPatterns elems _ number (by simp [Ty.length_tupleElems])
  | .slice elems _, _, number => by
      simp only [Pattern.follow, Plan.run_bind, Plan.run_pure, Pattern.occurrences,
        length_followPatterns]
      exact rewritten_followPatterns elems _ number (by simp)
  | .ref inner _, ty, number => inner.rewritten_follow (ty.map Ty.deref) number
  | .or alts _, ty, number => by
      simp only [Pattern.follow, Plan.run_bind, Plan.run_pure, Pattern.occurrences,
        length_followPatterns]
      exact rewritten_followPatterns alts _ number (by simp)

theorem rewritten_followPatterns :
    ∀ (pats : List Pattern) (tys : List (Option Ty)) (number : Nat), tys.length = pats.length →
      Rewritten plan number (Pattern.occurrencesAll function pats tys)
        (Pattern.occurrencesAll function ((followPatterns plan pats).run number).1 tys)
        ((followPatterns plan pats).run number).2
  | [], [], number, _ => .done number
  | pat :: pats, ty :: tys, number, h =>
      (pat.rewritten_follow ty number).append
        (rewritten_followPatterns pats tys _ (Nat.succ.inj h))

theorem rewritten_followFieldPatterns :
    ∀ (fields : List FieldPattern) (number : Nat),
      Rewritten plan number (Pattern.occurrencesFields function fields)
        (Pattern.occurrencesFields function ((followFieldPatterns plan fields).run number).1)
        ((followFieldPatterns plan fields).run number).2
  | [], number => .done number
  | ⟨_, pat⟩ :: rest, number =>
      (pat.rewritten_follow none number).append (rewritten_followFieldPatterns rest _)

end

/-! ### Declared names -/

mutual

/-- A pattern declares the same names with the same types after it has been rewritten. -/
theorem Pattern.bound_follow :
    ∀ (pat : Pattern) (ty : Option Ty) (number : Nat),
      ((pat.follow plan).run number).1.bound ty = pat.bound ty
  | .wild _, _, _ => rfl
  | .lit _ _, _, _ => rfl
  | .path _ _, _, _ => rfl
  | .binding _ none _ _ _, _, _ => rfl
  | .binding name (some sub) _ _ _, ty, number =>
      congrArg ((name, ty) :: ·) (sub.bound_follow ty number)
  | .tupleStruct ref elems span, ty, number => by
      simp only [Pattern.follow, Plan.run_bind, Plan.run_pure, Pattern.bound,
        length_followPatterns]
      exact boundAll_followPatterns elems _ _
  | .struct ref fields _ span, _, number => boundFields_followFieldPatterns fields _
  | .tuple elems _, ty, number => by
      simp only [Pattern.follow, Plan.run_bind, Plan.run_pure, Pattern.bound,
        length_followPatterns]
      exact boundAll_followPatterns elems _ number
  | .slice elems _, _, number => by
      simp only [Pattern.follow, Plan.run_bind, Plan.run_pure, Pattern.bound,
        length_followPatterns]
      exact boundAll_followPatterns elems _ number
  | .ref inner _, ty, number => inner.bound_follow (ty.map Ty.deref) number
  | .or [] _, _, _ => rfl
  | .or (alt :: _) _, ty, number => alt.bound_follow ty number

theorem boundAll_followPatterns :
    ∀ (pats : List Pattern) (tys : List (Option Ty)) (number : Nat),
      Pattern.boundAll ((followPatterns plan pats).run number).1 tys = Pattern.boundAll pats tys
  | [], _, _ => rfl
  | _ :: _, [], _ => rfl
  | pat :: pats, ty :: tys, number =>
      congrArg₂ (· ++ ·) (pat.bound_follow ty number) (boundAll_followPatterns pats tys _)

theorem boundFields_followFieldPatterns :
    ∀ (fields : List FieldPattern) (number : Nat),
      Pattern.boundFields ((followFieldPatterns plan fields).run number).1 =
        Pattern.boundFields fields
  | [], _ => rfl
  | ⟨_, pat⟩ :: rest, number =>
      congrArg₂ (· ++ ·) (pat.bound_follow none number) (boundFields_followFieldPatterns rest _)

end

end Patterns
end AssocLint
