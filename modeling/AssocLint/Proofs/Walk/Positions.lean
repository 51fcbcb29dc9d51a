import AssocLint.Occurrence.Walk
import AssocLint.Proofs.Scope.Stack
import AssocLint.Proofs.Tree.Nodes

/-!
# Positions in a pattern

A position in a pattern is a way down to one of the patterns in it, step by step, each step with
what stands around it (`Pattern.Step`). The way alone tells with what type of value the pattern at
its end is matched (`Position.subject`): behind a reference, a `@` or a bar the type is handed on,
in a tuple each element has its own, and inside a variant, a struct or a slice nothing is known.

Visiting a pattern and declaring its names go through a pattern separately, and agree on this: the
names are declared with the types of their positions, and whatever stands at a position is visited
with the type of that position (`bound_as_visited`).
-/

namespace AssocLint

/-- The elements of a tuple type with the given number of them. -/
def Ty.elems? (arity : Nat) : Ty → Option (List Ty)
  | .tuple elems _ => if elems.length = arity then some elems else none
  | _ => none

/-- The type of one element of a tuple with the given number of elements, behind at most one
reference. -/
def Ty.elemAt (ty : Option Ty) (arity index : Nat) : Option Ty :=
  (ty.map deref).bind fun whole => (whole.elems? arity).bind (·[index]?)

theorem Ty.getElem?_tupleElems (ty : Option Ty) {arity index : Nat} (h : index < arity) :
    (tupleElems ty arity)[index]? = some (elemAt ty arity index) := by
  unfold tupleElems elemAt
  cases ty.map deref with
  | none =>
      exact List.getElem?_replicate_of_lt h
  | some whole =>
      cases whole with
      | tuple elems span =>
          by_cases harity : elems.length = arity
          · subst harity
            simp [elems?, h]
          · simp [elems?, harity, h]
      | _ => exact List.getElem?_replicate_of_lt h

namespace Pattern

/-! ## Steps -/

/-- A step from a pattern to one that it is made of: all that stands around the latter. -/
inductive Step where
  | binding (name : String) (byRef mutable : Bool) (span : Span)
  | tupleStruct (written : Reference) (before after : List Pattern) (span : Span)
  | struct (written : Reference) (before : List FieldPattern) (name : String)
      (after : List FieldPattern) (rest : Bool) (span : Span)
  | tuple (before after : List Pattern) (span : Span)
  | slice (before after : List Pattern) (span : Span)
  | ref (span : Span)
  | or (before after : List Pattern) (span : Span)

namespace Step

/-- The whole pattern, with a given pattern at the end of the step. -/
def fill : Step → Pattern → Pattern
  | .binding name byRef mutable span, pat => .binding name (some pat) byRef mutable span
  | .tupleStruct written before after span, pat =>
    .tupleStruct written (before ++ pat :: after) span
  | .struct written before name after rest span, pat =>
    .struct written (before ++ ⟨name, pat⟩ :: after) rest span
  | .tuple before after span, pat => .tuple (before ++ pat :: after) span
  | .slice before after span, pat => .slice (before ++ pat :: after) span
  | .ref span, pat => .ref pat span
  | .or before after span, pat => .or (before ++ pat :: after) span

/-- The type of the value at the end of a step, by the type of the whole value. -/
def subject : Step → Option Ty → Option Ty
  | .binding .., ty | .or .., ty => ty
  | .ref _, ty => ty.map Ty.deref
  | .tuple before after _, ty => Ty.elemAt ty (before.length + (after.length + 1)) before.length
  | .tupleStruct .., _ | .struct .., _ | .slice .., _ => none

/-- Whether a step leads to no other alternative than the first one. -/
def isLeading : Step → Bool
  | .or before _ _ => before.isEmpty
  | _ => true

end Step

/-! ## Positions -/

/-- The way to a pattern inside another one, outermost step first, and the pattern there. -/
structure Position where
  steps : List Step
  pat : Pattern

namespace Position

def under (step : Step) (position : Position) : Position :=
  ⟨step :: position.steps, position.pat⟩

/-- The whole pattern, with a given pattern at the position. -/
def fill (position : Position) (other : Pattern) : Pattern :=
  position.steps.foldr Step.fill other

/-- The type of the value at a position, by the type of the whole value. -/
def subject (position : Position) (ty : Option Ty) : Option Ty :=
  position.steps.foldl (fun ty step => step.subject ty) ty

/-- Whether a position is in the first alternative of all alternatives around it. -/
def isLeading (position : Position) : Bool :=
  position.steps.all Step.isLeading

/-- The name that is declared at a position, with the type of the value there. -/
def declared? (ty : Option Ty) (position : Position) : Option (String × Option Ty) :=
  match position.pat with
  | .binding name _ _ _ _ => if position.isLeading then some (name, position.subject ty) else none
  | _ => none

end Position

mutual

/-- The positions in a pattern, its own one first. -/
def positions : Pattern → List Position
  | pat@(.wild _) => [⟨[], pat⟩]
  | pat@(.lit _ _) => [⟨[], pat⟩]
  | pat@(.path _ _) => [⟨[], pat⟩]
  | pat@(.binding _ none _ _ _) => [⟨[], pat⟩]
  | pat@(.binding name (some sub) byRef mutable span) =>
    ⟨[], pat⟩ :: sub.positions.map (.under (.binding name byRef mutable span))
  | pat@(.tupleStruct written elems span) =>
    ⟨[], pat⟩ :: positionsAll (.tupleStruct written · · span) [] elems
  | pat@(.struct written fields rest span) =>
    ⟨[], pat⟩ :: positionsFields (.struct written · · · rest span) [] fields
  | pat@(.tuple elems span) => ⟨[], pat⟩ :: positionsAll (.tuple · · span) [] elems
  | pat@(.slice elems span) => ⟨[], pat⟩ :: positionsAll (.slice · · span) [] elems
  | pat@(.ref inner span) => ⟨[], pat⟩ :: inner.positions.map (.under (.ref span))
  | pat@(.or alts span) => ⟨[], pat⟩ :: positionsAll (.or · · span) [] alts
termination_by structural pat => pat

/-- The positions in some patterns, given those before them and how to step to one of them. -/
def positionsAll (step : List Pattern → List Pattern → Step) (before : List Pattern) :
    List Pattern → List Position
  | [] => []
  | pat :: after =>
    pat.positions.map (.under (step before after)) ++ positionsAll step (before ++ [pat]) after
termination_by structural pats => pats

/-- The positions in some field patterns, given those before them. -/
def positionsFields (step : List FieldPattern → String → List FieldPattern → Step)
    (before : List FieldPattern) : List FieldPattern → List Position
  | [] => []
  | ⟨name, pat⟩ :: after =>
    pat.positions.map (.under (step before name after)) ++
      positionsFields step (before ++ [⟨name, pat⟩]) after
termination_by structural fields => fields

end

/-! ## Every pattern has its position -/

namespace Position

def node (position : Position) : Node :=
  .pattern position.pat

theorem map_node_under (step : Step) (positions : List Position) :
    (positions.map (under step)).map node = positions.map node :=
  List.map_map.trans rfl

/-- Where the steps of a position lead, there stands the pattern of the position. -/
def IsIn (whole : Pattern) (position : Position) : Prop :=
  position.fill position.pat = whole

theorem isIn_under {part : Pattern} {positions : List Position} (step : Step)
    (h : ∀ position ∈ positions, position.IsIn part) :
    ∀ position ∈ positions.map (under step), position.IsIn (step.fill part) := by
  rintro _ hposition
  obtain ⟨position, hmem, rfl⟩ := List.mem_map.1 hposition
  exact congrArg step.fill (h position hmem)

end Position

-- By recursion on the pattern: the positions of a part stand below the step to it.

mutual

/-- The positions in a pattern are those of the nodes that it is made of. -/
theorem map_node_positions : ∀ pat : Pattern, pat.positions.map Position.node = pat.nodes
  | .wild _ | .lit _ _ | .path _ _ | .binding _ none _ _ _ => rfl
  | .binding _ (some sub) _ _ _ =>
      congrArg (_ :: ·) ((Position.map_node_under _ _).trans sub.map_node_positions)
  | .tupleStruct _ elems _ | .tuple elems _ | .slice elems _ | .or elems _ =>
      congrArg (_ :: ·) (map_node_positionsAll _ [] elems)
  | .struct _ fields _ _ => congrArg (_ :: ·) (map_node_positionsFields _ [] fields)
  | .ref inner _ =>
      congrArg (_ :: ·) ((Position.map_node_under _ _).trans inner.map_node_positions)

theorem map_node_positionsAll (step : List Pattern → List Pattern → Step) :
    ∀ before pats : List Pattern,
      (positionsAll step before pats).map Position.node = nodesAll pats
  | _, [] => rfl
  | before, pat :: after => by
      rw [positionsAll, List.map_append, Position.map_node_under, pat.map_node_positions,
        map_node_positionsAll step (before ++ [pat]) after, nodesAll]

theorem map_node_positionsFields (step : List FieldPattern → String → List FieldPattern → Step) :
    ∀ before fields : List FieldPattern,
      (positionsFields step before fields).map Position.node = FieldPattern.nodesAll fields
  | _, [] => rfl
  | before, ⟨name, pat⟩ :: after => by
      rw [positionsFields, List.map_append, Position.map_node_under, pat.map_node_positions,
        map_node_positionsFields step _ after, FieldPattern.nodesAll]

end

-- By recursion on the pattern: each step puts its part between the parts before it and behind it.

mutual

theorem isIn_positions : ∀ pat : Pattern, ∀ position ∈ pat.positions, position.IsIn pat
  | .wild _ | .lit _ _ | .path _ _ | .binding _ none _ _ _ => List.forall_mem_singleton.2 rfl
  | .binding _ (some sub) _ _ _ =>
      List.forall_mem_cons.2 ⟨rfl, Position.isIn_under _ sub.isIn_positions⟩
  | .tupleStruct written elems span =>
      List.forall_mem_cons.2 ⟨rfl, isIn_positionsAll (.tupleStruct written · span)
        (fun _ _ _ => rfl) [] elems⟩
  | .tuple elems span =>
      List.forall_mem_cons.2 ⟨rfl, isIn_positionsAll (.tuple · span) (fun _ _ _ => rfl) [] elems⟩
  | .slice elems span =>
      List.forall_mem_cons.2 ⟨rfl, isIn_positionsAll (.slice · span) (fun _ _ _ => rfl) [] elems⟩
  | .or alts span =>
      List.forall_mem_cons.2 ⟨rfl, isIn_positionsAll (.or · span) (fun _ _ _ => rfl) [] alts⟩
  | .struct written fields rest span =>
      List.forall_mem_cons.2 ⟨rfl, isIn_positionsFields (.struct written · rest span)
        (fun _ _ _ _ => rfl) [] fields⟩
  | .ref inner _ => List.forall_mem_cons.2 ⟨rfl, Position.isIn_under _ inner.isIn_positions⟩

theorem isIn_positionsAll {step : List Pattern → List Pattern → Step}
    (whole : List Pattern → Pattern)
    (hfill : ∀ before pat after, (step before after).fill pat = whole (before ++ pat :: after)) :
    ∀ before pats, ∀ position ∈ positionsAll step before pats,
      position.IsIn (whole (before ++ pats))
  | _, [] => List.forall_mem_nil _
  | before, pat :: after => by
      have hpat := Position.isIn_under (step before after) pat.isIn_positions
      have hafter := isIn_positionsAll whole hfill (before ++ [pat]) after
      rw [hfill] at hpat
      rw [List.append_assoc] at hafter
      exact List.forall_mem_append.2 ⟨hpat, hafter⟩

theorem isIn_positionsFields {step : List FieldPattern → String → List FieldPattern → Step}
    (whole : List FieldPattern → Pattern)
    (hfill : ∀ before name pat after,
      (step before name after).fill pat = whole (before ++ ⟨name, pat⟩ :: after)) :
    ∀ before fields, ∀ position ∈ positionsFields step before fields,
      position.IsIn (whole (before ++ fields))
  | _, [] => List.forall_mem_nil _
  | before, ⟨name, pat⟩ :: after => by
      have hpat := Position.isIn_under (step before name after) pat.isIn_positions
      have hafter := isIn_positionsFields whole hfill (before ++ [⟨name, pat⟩]) after
      rw [hfill] at hpat
      rw [List.append_assoc] at hafter
      exact List.forall_mem_append.2 ⟨hpat, hafter⟩

end

/-! ## Visits -/

/-- One list has another one in it, between two that are always the same. -/
def Surrounds {α β : Type} (whole part : α → List β) : Prop :=
  ∃ before after, ∀ a, whole a = before ++ part a ++ after

namespace Surrounds

variable {α β : Type} {whole part inner : α → List β}

theorem refl : Surrounds part part :=
  ⟨[], [], fun _ => (List.append_nil _).symm⟩

theorem behind (first : List β) (h : Surrounds whole part) :
    Surrounds (fun a => first ++ whole a) part := by
  obtain ⟨before, after, heq⟩ := h
  exact ⟨first ++ before, after, fun a => by simp [heq]⟩

theorem trans (h : Surrounds whole part) (h' : Surrounds part inner) : Surrounds whole inner := by
  obtain ⟨before, after, heq⟩ := h
  obtain ⟨before', after', heq'⟩ := h'
  exact ⟨before ++ before', after' ++ after, fun a => by simp [heq, heq']⟩

end Surrounds

section Visits

variable (function : String)

/-- Of patterns side by side each is visited with the type at its own place. -/
theorem occurrencesAll_append_cons {before : List Pattern} {tys : List (Option Ty)} {ty : Option Ty}
    (h : tys[before.length]? = some ty) (pat : Pattern) (after : List Pattern) :
    occurrencesAll function (before ++ pat :: after) tys =
      occurrencesAll function before (tys.take before.length) ++ pat.occurrences function ty ++
        occurrencesAll function after (tys.drop (before.length + 1)) := by
  induction before generalizing tys with
  | nil =>
      cases tys with
      | nil => cases h
      | cons first tys =>
          obtain rfl : first = ty := Option.some.inj h
          rfl
  | cons first before ih =>
      cases tys with
      | nil => cases h
      | cons first' tys => simpa [occurrencesAll] using ih h

theorem surrounds_occurrencesAll (before after : List Pattern) (types : Nat → List (Option Ty))
    {ty : Option Ty}
    (h : (types (before.length + (after.length + 1)))[before.length]? = some ty) :
    Surrounds (fun pat => occurrencesAll function (before ++ pat :: after)
      (types (before ++ pat :: after).length)) (·.occurrences function ty) := by
  -- How many patterns there are does not depend on the one in the middle.
  have hlength (pat : Pattern) :
      (before ++ pat :: after).length = before.length + (after.length + 1) := by
    simp
  simp only [hlength]
  exact ⟨_, _, fun pat => occurrencesAll_append_cons function h pat after⟩

theorem occurrencesFields_append (fields fields' : List FieldPattern) :
    occurrencesFields function (fields ++ fields') =
      occurrencesFields function fields ++ occurrencesFields function fields' := by
  induction fields with
  | nil =>
      rfl
  | cons field fields ih =>
      obtain ⟨name, pat⟩ := field
      rw [List.cons_append, occurrencesFields, occurrencesFields, ih, List.append_assoc]

/-- What stands at the end of a step is visited with the type there, whatever it is. -/
theorem Step.surrounds_fill (step : Step) (ty : Option Ty) :
    Surrounds (fun pat => (step.fill pat).occurrences function ty)
      (·.occurrences function (step.subject ty)) := by
  have hside {ty' : Option Ty} (before after : List Pattern) :
      (List.replicate (before.length + (after.length + 1)) ty')[before.length]? = some ty' :=
    List.getElem?_replicate_of_lt (by omega)
  cases step with
  | binding name byRef mutable span =>
      exact .refl
  | ref span =>
      exact .refl
  | tuple before after span =>
      exact surrounds_occurrencesAll function before after (Ty.tupleElems ty)
        (Ty.getElem?_tupleElems ty (by omega))
  | slice before after span =>
      exact surrounds_occurrencesAll function before after (List.replicate · none)
        (hside before after)
  | or before after span =>
      exact surrounds_occurrencesAll function before after (List.replicate · ty)
        (hside before after)
  | tupleStruct written before after span =>
      exact .behind _ (surrounds_occurrencesAll function before after (List.replicate · none)
        (hside before after))
  | struct written before name after rest span =>
      have hfields (pat : Pattern) :
          occurrencesFields function (before ++ ⟨name, pat⟩ :: after) =
            occurrencesFields function before ++ pat.occurrences function none ++
              occurrencesFields function after := by
        rw [occurrencesFields_append, occurrencesFields, List.append_assoc]
      exact .behind _ ⟨_, _, hfields⟩

/-- What stands at a position is visited with the type of the position, whatever it is. -/
theorem Position.surrounds_fill (position : Position) (ty : Option Ty) :
    Surrounds (fun pat => (position.fill pat).occurrences function ty)
      (·.occurrences function (position.subject ty)) := by
  obtain ⟨steps, pat⟩ := position
  induction steps generalizing ty with
  | nil =>
      exact .refl
  | cons step steps ih =>
      obtain ⟨before, after, hstep⟩ := step.surrounds_fill function ty
      exact .trans ⟨before, after, fun pat => hstep _⟩ (ih (step.subject ty))

end Visits

/-! ## Declarations -/

theorem Position.declared?_under (step : Step) (position : Position) (ty : Option Ty) :
    (position.under step).declared? ty =
      if step.isLeading then position.declared? (step.subject ty) else none := by
  obtain ⟨steps, pat⟩ := position
  cases pat with
  | binding name sub byRef mutable span =>
      cases hlead : step.isLeading <;>
        simp [declared?, under, isLeading, subject, hlead]
  | _ => simp [declared?, under]

theorem Position.filterMap_declared?_under {step : Step} (hlead : step.isLeading = true)
    (positions : List Position) (ty : Option Ty) :
    (positions.map (under step)).filterMap (declared? ty) =
      positions.filterMap (declared? (step.subject ty)) := by
  simp only [List.filterMap_map, Function.comp_def, declared?_under, hlead, if_true]

/-- Nothing is declared in an alternative that is not the first one. -/
theorem filterMap_declared?_later {before : List Pattern} (h : before ≠ []) (alts : List Pattern)
    (span : Span) (ty : Option Ty) :
    (positionsAll (.or · · span) before alts).filterMap (Position.declared? ty) = [] := by
  induction alts generalizing before with
  | nil =>
      rfl
  | cons alt alts ih =>
      have hlater : (Step.or before alts span).isLeading = false := by
        simpa [Step.isLeading] using h
      have hrest := ih (List.append_ne_nil_of_right_ne_nil before (List.cons_ne_nil alt []))
      simp [positionsAll, List.filterMap_append, List.filterMap_map, Position.declared?_under,
        hlater, hrest]

theorem getElem?_replicate_of_eq {pats first rest : List Pattern} {pat : Pattern}
    (h : pats = first ++ pat :: rest) (ty : Option Ty) :
    (List.replicate pats.length ty)[first.length]? = some ty :=
  List.getElem?_replicate_of_lt (by simp [h])

theorem getElem?_tupleElems_of_eq {pats first rest : List Pattern} {pat : Pattern}
    (h : pats = first ++ pat :: rest) (ty : Option Ty) :
    (Ty.tupleElems ty pats.length)[first.length]? =
      some (Ty.elemAt ty (first.length + (rest.length + 1)) first.length) := by
  rw [h, List.length_append, List.length_cons]
  exact Ty.getElem?_tupleElems ty (by omega)

-- By recursion on the pattern: the list of types that the declarations go along has at each place
-- the type that the step to this place hands on.

mutual

/-- Names are declared with the types of their positions, those in first alternatives only. -/
theorem bound_eq_filterMap :
    ∀ (pat : Pattern) (ty : Option Ty),
      pat.bound ty = pat.positions.filterMap (Position.declared? ty)
  | .wild _, _ | .lit _ _, _ | .path _ _, _ | .binding _ none _ _ _, _ => rfl
  | .binding name (some sub) byRef mutable span, ty => by
      have hstep : (Step.binding name byRef mutable span).isLeading = true := rfl
      have hsub := Position.filterMap_declared?_under hstep sub.positions ty
      rw [← sub.bound_eq_filterMap] at hsub
      exact congrArg ((name, ty) :: ·) hsub.symm
  | .tupleStruct written elems span, ty =>
      boundAll_eq_filterMap (.tupleStruct written · · span) (List.replicate elems.length none) ty
        (fun _ _ => rfl) [] elems fun _ _ _ h => getElem?_replicate_of_eq h none
  | .slice elems span, ty =>
      boundAll_eq_filterMap (.slice · · span) (List.replicate elems.length none) ty
        (fun _ _ => rfl) [] elems fun _ _ _ h => getElem?_replicate_of_eq h none
  | .tuple elems span, ty =>
      boundAll_eq_filterMap (.tuple · · span) (Ty.tupleElems ty elems.length) ty
        (fun _ _ => rfl) [] elems fun _ _ _ h => getElem?_tupleElems_of_eq h ty
  | .or [] _, _ => rfl
  | .or (alt :: rest) span, ty => by
      have hstep : (Step.or [] rest span).isLeading = true := rfl
      have halt := Position.filterMap_declared?_under hstep alt.positions ty
      have hrest := filterMap_declared?_later (List.cons_ne_nil alt []) rest span ty
      rw [← alt.bound_eq_filterMap] at halt
      calc
        alt.bound ty = alt.bound ty ++ [] := (List.append_nil _).symm
        _ = (positionsAll (.or · · span) [] (alt :: rest)).filterMap (Position.declared? ty) := by
          rw [positionsAll, List.filterMap_append, halt]
          exact congrArg (alt.bound ty ++ ·) hrest.symm
  | .struct written fields rest span, ty =>
      boundFields_eq_filterMap (.struct written · · · rest span) ty (fun _ _ _ => ⟨rfl, rfl⟩) []
        fields
  | .ref inner span, ty => by
      have hstep : (Step.ref span).isLeading = true := rfl
      have hinner := Position.filterMap_declared?_under hstep inner.positions ty
      rw [← inner.bound_eq_filterMap] at hinner
      exact hinner.symm

theorem boundAll_eq_filterMap (step : List Pattern → List Pattern → Step) (tys : List (Option Ty))
    (ty : Option Ty) (hlead : ∀ before after, (step before after).isLeading = true) :
    ∀ before pats : List Pattern,
      (∀ first pat rest, before ++ pats = first ++ pat :: rest →
        tys[first.length]? = some ((step first rest).subject ty)) →
      boundAll pats (tys.drop before.length) =
        (positionsAll step before pats).filterMap (Position.declared? ty)
  | _, [], _ => by
      rw [boundAll.eq_def]
      rfl
  | before, pat :: after, h => by
      have hdrop : tys.drop before.length =
          (step before after).subject ty :: tys.drop (before ++ [pat]).length := by
        obtain ⟨hlt, heq⟩ := List.getElem?_eq_some_iff.1 (h before pat after rfl)
        rw [List.drop_eq_getElem_cons hlt, heq, List.length_append]
        rfl
      have hafter := boundAll_eq_filterMap step tys ty hlead (before ++ [pat]) after
        fun first pat' rest heq => h first pat' rest (by simpa using heq)
      rw [hdrop, boundAll, hafter, positionsAll, List.filterMap_append,
        Position.filterMap_declared?_under (hlead before after), pat.bound_eq_filterMap]

theorem boundFields_eq_filterMap (step : List FieldPattern → String → List FieldPattern → Step)
    (ty : Option Ty)
    (h : ∀ before name after,
      (step before name after).isLeading = true ∧ (step before name after).subject ty = none) :
    ∀ before fields : List FieldPattern,
      boundFields fields = (positionsFields step before fields).filterMap (Position.declared? ty)
  | _, [] => rfl
  | before, ⟨name, pat⟩ :: after => by
      obtain ⟨hlead, hsubject⟩ := h before name after
      rw [boundFields, boundFields_eq_filterMap step ty h _ after, positionsFields,
        List.filterMap_append, Position.filterMap_declared?_under hlead, hsubject,
        pat.bound_eq_filterMap]

end

/-! ## Agreement -/

/-- The names of a pattern are declared with the types of their positions, in the order of the
pattern, of alternatives those in the first one. At each position, and every pattern in the pattern
has one, whatever stands there is visited with that same type. Of several declarations of a name the
last one is kept, and other names keep what they had. -/
theorem bound_as_visited (pat : Pattern) (ty : Option Ty) (function : String) :
    pat.bound ty = pat.positions.filterMap (Position.declared? ty) ∧
    pat.positions.map Position.node = pat.nodes ∧
    (∀ position ∈ pat.positions, position.fill position.pat = pat ∧
      ∃ before after, ∀ other : Pattern,
        (position.fill other).occurrences function ty =
          before ++ other.occurrences function (position.subject ty) ++ after) ∧
    ∀ (scope : Scope) (outer : ScopeStack) (name : String),
      (ScopeStack.declareAll (scope :: outer) (pat.bound ty)).lookup name =
        ((pat.bound ty).reverse.lookup name).getD (ScopeStack.lookup (scope :: outer) name) :=
  ⟨pat.bound_eq_filterMap ty, pat.map_node_positions,
    fun position hposition =>
      ⟨pat.isIn_positions position hposition, position.surrounds_fill function ty⟩,
    fun scope outer name => ScopeStack.lookup_declareAll (pat.bound ty) scope outer name⟩

/-- In `(x, &x | y)`, matched with a pair behind a reference, `x` is first the one element and then
what the other one refers to. The second alternative declares nothing. -/
example (left right : Ty) :
    bound (.tuple [.binding "x" none false false {},
        .or [.ref (.binding "x" none false false {}) {}, .binding "y" none false false {}] {}] {})
      (some (.ref (.tuple [left, .ref right false {}] {}) false {})) =
        [("x", some left), ("x", some right)] := by
  rfl

end Pattern
end AssocLint
