import AssocLint.Reference.Identity
import AssocLint.Tree.Crate

/-!
# Bindings of associated types

The definitions `type Name = Target;` of an implementation block whose target is a concrete path,
and their lookup by the identity of the target.

`ImplBlock.bindings` lists them in source order, of definitions with one name only the first.
`BindingIndex.candidates` finds those that an occurrence may stand for, in the order in which they
were registered.
-/

namespace AssocLint

/-- The definition `type name = target;`. -/
structure Binding where
  name : String
  target : Reference
  span : Span

namespace Binding

def render (binding : Binding) : String :=
  "type " ++ binding.name ++ " = " ++ binding.target.render

instance : ToString Binding := ⟨render⟩

end Binding

/-- Whether a path of this resolution can be what an associated type stands for. -/
def Resolution.isConcrete : Resolution → Bool
  | .typeParam | .selfType | .unresolved | .localVar => false
  | _ => true

/-- The concrete path that an associated type is defined as. -/
def AssocType.target? (item : AssocType) : Option Reference :=
  match item.ty with
  | .path ref _ => if ref.res?.all Resolution.isConcrete then some ref else none
  | _ => none

namespace ImplBlock

/-- The bindings among some associated types, given the names that are already defined. -/
def bindingsFrom (defined : List String) : List AssocType → List Binding
  | [] => []
  | item :: rest =>
    if defined.contains item.name then bindingsFrom defined rest
    else
      match item.target? with
      | none => bindingsFrom (item.name :: defined) rest
      | some target => ⟨item.name, target, item.span⟩ :: bindingsFrom (item.name :: defined) rest

/-- The bindings of a block. The first definition of a name counts, even where it is no binding. -/
def bindings (block : ImplBlock) : List Binding :=
  bindingsFrom [] block.assocTypes

end ImplBlock

/-- A binding with the identity of its target. One without identity is never found. -/
structure IndexedBinding where
  binding : Binding
  key : Option Identity

namespace IndexedBinding

def ofBinding (binding : Binding) : IndexedBinding :=
  ⟨binding, binding.target.identity?⟩

/-- Whether a binding can be found. -/
def isSupported (entry : IndexedBinding) : Bool :=
  entry.key.isSome

end IndexedBinding

/-- Bindings in the order of their registration, and the same grouped by identity. -/
structure BindingIndex where
  entries : List IndexedBinding
  groups : List (Identity × List IndexedBinding)

namespace BindingIndex

/-- Adds an entry at the end of its group, or a new group at the end. -/
def addToGroups (key : Identity) (entry : IndexedBinding) :
    List (Identity × List IndexedBinding) → List (Identity × List IndexedBinding)
  | [] => [(key, [entry])]
  | (key', group) :: rest =>
    if key' = key then (key', group ++ [entry]) :: rest
    else (key', group) :: addToGroups key entry rest

def group (entries : List IndexedBinding) : List (Identity × List IndexedBinding) :=
  entries.foldl
    (fun groups entry =>
      match entry.key with
      | some key => addToGroups key entry groups
      | none => groups)
    []

def ofBindings (bindings : List Binding) : BindingIndex :=
  let entries := bindings.map IndexedBinding.ofBinding
  ⟨entries, group entries⟩

def supported (index : BindingIndex) : List IndexedBinding :=
  index.entries.filter (·.isSupported)

def unsupported (index : BindingIndex) : List IndexedBinding :=
  index.entries.filter (!·.isSupported)

/-- The entries whose target has the identity of the type portion of a reference. -/
def candidates (index : BindingIndex) (ref : Reference) : List IndexedBinding :=
  match ref.typePortion?.bind Reference.identity? with
  | none => []
  | some key => (index.groups.lookup key).getD []

end BindingIndex

def ImplBlock.index (block : ImplBlock) : BindingIndex :=
  BindingIndex.ofBindings block.bindings

end AssocLint
