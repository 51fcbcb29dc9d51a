import AssocLint.Proofs.Dump.ReadOnce
import AssocLint.Proofs.Grammar.Shape

/-!
# Every reference of a dump is well shaped

Every path of a crate comes from path text: from the text of a path, from the two texts of a
relative one, or from the tag of a language item. Each way gives a well-shaped reference or a
language item, also where the text is refused. The references of a crate are what is read at the
places of its dump, so all of them are well shaped (`Crate.wellShaped_of_ofDump`).
-/

namespace AssocLint
namespace Dump

/-! ## Paths -/

theorem isWellShaped_languageItem (tag : String) : (Reference.languageItem tag).IsWellShaped :=
  ⟨trivial, nofun⟩

theorem isWellShaped_pathText (text : String) (res : Option Resolution) :
    (pathText text res).IsWellShaped := by
  unfold pathText
  cases hread : Reference.read text res with
  | error fault =>
      exact isWellShaped_languageItem text
  | ok ref =>
      exact Reference.isWellShaped_of_read hread

theorem isWellShaped_of_memberText? {base member : String} {ref : Resolution → Reference}
    (h : memberText? base member = some ref) (res : Resolution) : (ref res).IsWellShaped := by
  unfold memberText? at h
  cases hbase : Reference.readArgument base with
  | error fault =>
      rw [hbase] at h
      cases h
  | ok base' =>
      cases hmember : Segment.read member with
      | error fault =>
          rw [hbase, hmember] at h
          cases h
      | ok segment =>
          rw [hbase, hmember] at h
          cases h
          have hsegment := Segment.isMember_of_read hmember
          exact ⟨hsegment.name_ne, Reference.forall_parts_relative
            (Reference.isInner_of_readArgument hbase) hsegment.args⟩

theorem shaped_readPathForm (form : Form) (outer : Span) :
    Gives (readPathForm form outer) fun answer => answer.1.IsWellShaped := by
  unfold readPathForm
  split
  · refine .step fun parts => .step fun value => .step fun text => ?_
    refine .step fun res => .step fun span => ?_
    exact .ok (isWellShaped_pathText text res)
  · refine .step fun parts => .step fun (base, member) => .step fun base => .step fun member => ?_
    split
    · exact .step fun span => .ok (isWellShaped_languageItem _)
    · rename_i ref hmember
      exact .step fun res => .step fun span => .ok (isWellShaped_of_memberText? hmember _)
  · refine .step fun parts => .step fun value => .step fun tag => .step fun span => ?_
    exact .ok (isWellShaped_languageItem tag)
  · exact .fault

/-- What is read at a place is well shaped. -/
theorem Place.IsReadAs.isWellShaped {place : Place} {ref : Reference} (h : place.IsReadAs ref) :
    ref.IsWellShaped := by
  cases place with
  | text path =>
      obtain rfl : ref = pathText path none := h
      exact isWellShaped_pathText path none
  | form pathForm =>
      obtain ⟨outer, span, hread⟩ := h
      exact shaped_readPathForm pathForm outer _ hread

/-- All of several references are well shaped. -/
def AllShaped (refs : List Reference) : Prop :=
  ∀ ref ∈ refs, ref.IsWellShaped

theorem Reads.allShaped {places : List Place} {refs : List Reference} (h : Reads places refs) :
    AllShaped refs := by
  induction h with
  | nil => exact List.forall_mem_nil _
  | cons hread _ ih => exact List.forall_mem_cons.2 ⟨hread.isWellShaped, ih⟩

end Dump

/-! ## Loading -/

namespace BindingIndex

/-- Where only language items lack an identity, the bindings that are never found are those to
language items. -/
theorem map_binding_unsupported {bindings : List Binding}
    (h : ∀ binding ∈ bindings,
      binding.target.identity? = none ↔ binding.target.isLanguageItem = true) :
    (ofBindings bindings).unsupported.map (·.binding) =
      bindings.filter (·.target.isLanguageItem) := by
  have hsame : bindings.filter (fun binding => !(IndexedBinding.ofBinding binding).isSupported) =
      bindings.filter (·.target.isLanguageItem) := by
    refine List.filter_congr fun binding hbinding => ?_
    have hiff := h binding hbinding
    rw [← Option.not_isSome_iff_eq_none] at hiff
    rw [Bool.eq_iff_iff, ← hiff, IndexedBinding.isSupported, IndexedBinding.ofBinding,
      Bool.not_eq_true']
    exact Bool.eq_false_iff
  calc
    (ofBindings bindings).unsupported.map (·.binding)
        = (bindings.filter fun binding =>
            !(IndexedBinding.ofBinding binding).isSupported).map
              fun binding => (IndexedBinding.ofBinding binding).binding := by
          rw [unsupported, ofBindings, List.filter_map, List.map_map]
          rfl
    _ = bindings.filter (·.target.isLanguageItem) := by
          rw [hsame]
          exact List.map_id _

end BindingIndex

theorem Dump.allShaped_of_ofDump {text name : String} {crate : Crate}
    (h : Crate.ofDump text name = .ok crate) : AllShaped crate.references := by
  obtain ⟨values, _, hcrate⟩ := Crate.ofDump_eq_ok_iff.1 h
  exact (readOnce_readCrate values crate hcrate).allShaped

/-- Every reference of a loaded crate is well shaped, so at any depth none but a language item lacks
an identity, and the bindings that are never found are those to language items. -/
theorem Crate.wellShaped_of_ofDump {text name : String} {crate : Crate}
    (h : Crate.ofDump text name = .ok crate) :
    (∀ ref ∈ crate.references, ref.IsWellShaped ∧
      ∀ node ∈ ref.nodes, node.identity? = none ↔ node.isLanguageItem = true) ∧
    ∀ block ∈ crate.impls,
      block.index.unsupported.map (·.binding) =
        block.bindings.filter (·.target.isLanguageItem) := by
  have hshaped := Dump.allShaped_of_ofDump h
  refine ⟨fun ref href => ⟨hshaped ref href, fun node hnode => ?_⟩, fun block hblock => ?_⟩
  · exact ((hshaped ref href).of_mem_nodes hnode).identity?_eq_none_iff
  · refine BindingIndex.map_binding_unsupported fun binding hbinding => ?_
    have hmem : binding.target ∈ crate.references :=
      List.mem_flatMap.2 ⟨block, hblock, ImplBlock.target_mem_references hbinding⟩
    exact (hshaped _ hmem).identity?_eq_none_iff

/-- The text of the second path is refused, and its binding is never found. -/
theorem Crate.wellShaped_of_ofDump_unreadable_path :
    let text := "(crate \"src/lib.rs\"
      (impl :trait Trait :self-ty Owner
        (type Read (path \"<Vec<& u8> as Iterator>::Item\"))
        (type Lost (path \"Vec<\"))))"
    ∃ crate, Crate.ofDump text "dump" = .ok crate ∧
      (crate.impls.flatMap (·.index.unsupported)).map (·.binding.name) = ["Lost"] ∧
      (∀ ref ∈ crate.references, ref.IsWellShaped ∧
        ∀ node ∈ ref.nodes, node.identity? = none ↔ node.isLanguageItem = true) ∧
      ∀ block ∈ crate.impls,
        block.index.unsupported.map (·.binding) =
          block.bindings.filter (·.target.isLanguageItem) := by
  intro text
  have hread : ((Crate.ofDump text "dump").toOption.map fun crate =>
      (crate.impls.flatMap (·.index.unsupported)).map (·.binding.name)) = some ["Lost"] := by
    decide +kernel
  cases hcrate : Crate.ofDump text "dump" with
  | error failure =>
      rw [hcrate] at hread
      cases hread
  | ok crate =>
      rw [hcrate] at hread
      exact ⟨crate, rfl, Option.some.inj hread, Crate.wellShaped_of_ofDump hcrate⟩

end AssocLint
