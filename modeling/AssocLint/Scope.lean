import AssocLint.Tree.Expr

/-!
# Scopes of local variables

While a body is walked, a stack of scopes records the declared type of every local name in sight.
The innermost scope comes first, and in it the latest declaration.

`Pattern.bound` lists what a pattern declares, `ScopeStack.typeOf` reads the declared type of an
expression off the stack.
-/

namespace AssocLint

/-- Names with their declared types, where these are known; latest first. -/
abbrev Scope : Type :=
  List (String × Option Ty)

/-- Scopes around a place in a body, innermost first. -/
abbrev ScopeStack : Type :=
  List Scope

/-! ## What a pattern declares -/

namespace Pattern

mutual

/-- The names that a pattern declares for a value of the given type, in order. Of alternatives the
first one speaks for all; inside a struct, a variant or a slice no type is known. -/
def bound : Pattern → Option Ty → List (String × Option Ty)
  | .binding name none _ _ _, ty => [(name, ty)]
  | .binding name (some sub) _ _ _, ty => (name, ty) :: sub.bound ty
  | .ref inner _, ty => inner.bound (ty.map Ty.deref)
  | .or [] _, _ => []
  | .or (alt :: _) _, ty => alt.bound ty
  | .tuple elems _, ty => boundAll elems (Ty.tupleElems ty elems.length)
  | .tupleStruct _ elems _, _ => boundAll elems (List.replicate elems.length none)
  | .slice elems _, _ => boundAll elems (List.replicate elems.length none)
  | .struct _ fields _ _, _ => boundFields fields
  | .wild _, _ => []
  | .path _ _, _ => []
  | .lit _ _, _ => []
termination_by structural pat => pat

/-- The names that patterns declare, each for a value of its own type. -/
def boundAll : List Pattern → List (Option Ty) → List (String × Option Ty)
  | pat :: pats, ty :: tys => pat.bound ty ++ boundAll pats tys
  | _, _ => []
termination_by structural pats => pats

def boundFields : List FieldPattern → List (String × Option Ty)
  | [] => []
  | ⟨_, pat⟩ :: rest => pat.bound none ++ boundFields rest
termination_by structural fields => fields

end

end Pattern

/-! ## The stack -/

namespace ScopeStack

def push (stack : ScopeStack) : ScopeStack :=
  [] :: stack

def pop (stack : ScopeStack) : ScopeStack :=
  stack.tail

def declare (stack : ScopeStack) (name : String) (ty : Option Ty) : ScopeStack :=
  match stack with
  | [] => []
  | scope :: outer => ((name, ty) :: scope) :: outer

def declareAll (stack : ScopeStack) (names : List (String × Option Ty)) : ScopeStack :=
  names.foldl (fun stack (name, ty) => stack.declare name ty) stack

/-- The declared type of a name, by the innermost scope that has it. -/
def lookup (stack : ScopeStack) (name : String) : Option Ty :=
  (stack.findSome? (List.lookup name)).join

/-- The declared type of an expression that comes down to a local name: the name itself, behind
references or in a block that does nothing else. Dereferencing takes one reference off the type. -/
def typeOf (stack : ScopeStack) : Expr → Option Ty
  | .unary op operand _ =>
    let ty := typeOf stack operand
    if op == "*" then ty.map Ty.deref
    else if op == "&" || op == "&mut" then ty
    else none
  | .path (.resolved none [segment] .localVar) _ => stack.lookup segment.name
  | .block ⟨[], some tail, _⟩ _ => typeOf stack tail
  | _ => none
termination_by structural expr => expr

end ScopeStack
end AssocLint
