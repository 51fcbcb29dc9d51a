import AssocLint.Reference
import AssocLint.Span

/-!
# Types of the tree
-/

namespace AssocLint

/-- A type as it is written. -/
inductive Ty where
  | path (ref : Reference) (span : Span)
  /-- The type `&T` or `&mut T`. -/
  | ref (inner : Ty) (mutable : Bool) (span : Span)
  | tuple (elems : List Ty) (span : Span)
  | slice (elem : Ty) (span : Span)
  | array (elem : Ty) (length : String) (span : Span)
  /-- The inferred type `_`. -/
  | infer (span : Span)
  /-- The empty type `!`. -/
  | never (span : Span)
  /-- Any other form (function pointers, trait objects), as text. -/
  | verbatim (text : String) (span : Span)

namespace Ty

mutual

def render : Ty → String
  | .path written _ => written.render
  | .ref inner mutable _ => (if mutable then "&mut " else "&") ++ inner.render
  | .tuple elems _ => "(" ++ ", ".intercalate (renderAll elems) ++ ")"
  | .slice elem _ => "[" ++ elem.render ++ "]"
  | .array elem length _ => "[" ++ elem.render ++ "; " ++ length ++ "]"
  | .infer _ => "_"
  | .never _ => "!"
  | .verbatim text _ => text
termination_by structural ty => ty

def renderAll : List Ty → List String
  | [] => []
  | ty :: rest => ty.render :: renderAll rest
termination_by structural tys => tys

end

instance : ToString Ty := ⟨render⟩

/-- The type behind one reference; any other type is itself. -/
def deref : Ty → Ty
  | .ref inner _ _ => inner
  | ty => ty

/-- The type behind all its references. -/
def peel : Ty → Ty
  | .ref inner _ _ => inner.peel
  | ty => ty

/-- The element types of a tuple type of the given arity, behind at most one reference. Where there
is no such type nothing is known of any element. -/
def tupleElems (ty : Option Ty) (arity : Nat) : List (Option Ty) :=
  match ty.map deref with
  | some (.tuple elems _) =>
    if elems.length == arity then elems.map some else List.replicate arity none
  | _ => List.replicate arity none

/-- A tuple pattern finds one type for each of its elements. -/
theorem length_tupleElems (ty : Option Ty) (arity : Nat) :
    (tupleElems ty arity).length = arity := by
  unfold tupleElems
  split
  · split
    · simp_all
    · simp
  · simp

end Ty
end AssocLint
