import AssocLint.Sexp

/-!
# Equality of values

Whether two values are equal can be decided (`same`). Often they need to be equal but for the
lines of their lists only (`unlined`): nothing that is shown of a value depends on its lines, and
neither does its depth.
-/

namespace AssocLint
namespace Sexp

/-! ## Equal values -/

mutual

def same : Sexp → Sexp → Bool
  | .symbol name, .symbol name' => name == name'
  | .text value, .text value' => value == value'
  | .int value, .int value' => value == value'
  | .float value, .float value' => value == value'
  | .list line items, .list line' items' => line == line' && sameAll items items'
  | .quoted value, .quoted value' => same value value'
  | .brackets items, .brackets items' => sameAll items items'
  | _, _ => false
termination_by structural value => value

def sameAll : List Sexp → List Sexp → Bool
  | [], [] => true
  | value :: rest, value' :: rest' => same value value' && sameAll rest rest'
  | _, _ => false
termination_by structural values => values

end

mutual

theorem same_iff : ∀ value value' : Sexp, same value value' ↔ value = value'
  | .symbol _, value' | .text _, value' | .int _, value' | .float _, value' => by
      cases value' <;> simp [same]
  | .list _ items, value' => by cases value' <;> simp [same, sameAll_iff items]
  | .quoted value, value' => by cases value' <;> simp [same, same_iff value]
  | .brackets items, value' => by cases value' <;> simp [same, sameAll_iff items]

theorem sameAll_iff : ∀ values values' : List Sexp, sameAll values values' ↔ values = values'
  | [], values' => by cases values' <;> simp [sameAll]
  | value :: rest, values' => by cases values' <;> simp [sameAll, same_iff value, sameAll_iff rest]

end

instance : DecidableEq Sexp :=
  fun value value' => decidable_of_iff _ (same_iff value value')

/-! ## Values without their lines -/

mutual

/-- A value without the lines of its lists. -/
def unlined : Sexp → Sexp
  | .list line items => .list (line.map fun _ => 0) (unlinedAll items)
  | .quoted value => .quoted value.unlined
  | .brackets items => .brackets (unlinedAll items)
  | value => value
termination_by structural value => value

def unlinedAll : List Sexp → List Sexp
  | [] => []
  | value :: rest => value.unlined :: unlinedAll rest
termination_by structural values => values

end

theorem unlinedAll_eq (values : List Sexp) : unlinedAll values = values.map unlined := by
  induction values with
  | nil => rfl
  | cons value rest ih => rw [unlinedAll, ih, List.map_cons]

mutual

/-- Lines are not shown. -/
theorem inspect_unlined : ∀ value : Sexp, value.unlined.inspect = value.inspect
  | .symbol _ | .text _ | .int _ | .float _ => rfl
  | .list _ items => by simp only [unlined, inspect, inspectAll_unlinedAll items]
  | .quoted value => by simp only [unlined, inspect, value.inspect_unlined]
  | .brackets items => by simp only [unlined, inspect, inspectAll_unlinedAll items]

theorem inspectAll_unlinedAll :
    ∀ values : List Sexp, inspectAll (unlinedAll values) = inspectAll values
  | [] => rfl
  | value :: rest => by
      simp only [unlinedAll, inspectAll, value.inspect_unlined, inspectAll_unlinedAll rest]

end

mutual

theorem depth_unlined : ∀ value : Sexp, value.unlined.depth = value.depth
  | .symbol _ | .text _ | .int _ | .float _ => rfl
  | .list _ items => by simp only [unlined, depth, depthAll_unlinedAll items]
  | .quoted value => by simp only [unlined, depth, value.depth_unlined]
  | .brackets items => by simp only [unlined, depth, depthAll_unlinedAll items]

theorem depthAll_unlinedAll :
    ∀ values : List Sexp, depthAll (unlinedAll values) = depthAll values
  | [] => rfl
  | value :: rest => by
      simp only [unlinedAll, depthAll, value.depth_unlined, depthAll_unlinedAll rest]

end

theorem word?_unlined (value : Sexp) : value.unlined.word? = value.word? := by
  cases value <;> rfl

theorem plainText_unlined (value : Sexp) : value.unlined.plainText = value.plainText := by
  rw [plainText, plainText, word?_unlined, inspect_unlined]

end Sexp
end AssocLint
