import AssocLint.Dump.Form

/-!
# What a reading of a dump gives

`Gives result P` says that what a reading gives has the property `P`; of a reading that fails it
says nothing. The lemmas pass it on through the ways in which readings are put together: one after
another, behind a check, item by item, and for a keyword that may be missing.
-/

namespace AssocLint
namespace Dump

variable {α β : Type} {P : α → Prop} {Q : β → Prop}

theorem isSome_toOption {ε : Type} {result : Except ε α} :
    result.toOption.isSome ↔ ∃ value, result = .ok value := by
  cases result with
  | error fault => exact ⟨nofun, nofun⟩
  | ok value => exact ⟨fun _ => ⟨value, rfl⟩, fun _ => rfl⟩

theorem eq_ok_of_toOption {ε : Type} {result : Except ε α} {value : α}
    (h : result.toOption = some value) : result = .ok value := by
  cases result with
  | error fault => cases h
  | ok value' =>
      cases h
      rfl

theorem eq_error_of_map {ε : Type} {result : Except ε α} {make : α → β} {fault : ε}
    (h : result.map make = .error fault) : result = .error fault := by
  cases result with
  | error fault' =>
      cases h
      rfl
  | ok value => cases h

/-- What a reading gives has a property. -/
def Gives (result : DumpResult α) (P : α → Prop) : Prop :=
  ∀ value, result = .ok value → P value

namespace Gives

theorem ok {value : α} (h : P value) : Gives (.ok value) P := by
  rintro value' ⟨⟩
  exact h

theorem self {result : DumpResult α} : Gives result fun value => result = .ok value :=
  fun _ h => h

theorem fault {form : Form} {problem : DumpProblem} : Gives (form.fault problem) P := by
  intro value h
  cases h

theorem bind {result : DumpResult α} {next : α → DumpResult β} (h : Gives result P)
    (hnext : ∀ value, P value → Gives (next value) Q) : Gives (result >>= next) Q := by
  cases result with
  | error fault =>
      intro value hvalue
      cases hvalue
  | ok value =>
      exact hnext value (h value rfl)

/-- The value of a first reading that does not matter. -/
theorem step {result : DumpResult α} {next : α → DumpResult β}
    (hnext : ∀ value, Gives (next value) Q) : Gives (result >>= next) Q :=
  bind (P := fun _ => True) (fun _ _ => trivial) fun value _ => hnext value

/-- A form is read on where a check of it is passed. -/
theorem checked {failed : Prop} [Decidable failed] {form : Form} {problem : DumpProblem}
    {next : PUnit → DumpResult β} (h : ¬ failed → Gives (next ⟨⟩) Q) :
    Gives (if failed then form.fault problem >>= next else next ⟨⟩) Q := by
  split
  · exact fault.bind (P := fun _ => False) fun _ hvalue => hvalue.elim
  · exact h ‹_›

theorem check {failed : Prop} [Decidable failed] {form : Form} {problem : DumpProblem}
    {next : PUnit → DumpResult β} (h : Gives (next ⟨⟩) Q) :
    Gives (if failed then form.fault problem >>= next else next ⟨⟩) Q :=
  checked fun _ => h

theorem text {form : Form} {value : Sexp} :
    Gives (form.text value) fun text => value.word? = some text := by
  unfold Form.text
  split
  · exact ok ‹_›
  · exact fault

theorem int {form : Form} {value : Sexp} :
    Gives (form.int value) fun number => value = .int number := by
  unfold Form.int
  split
  · exact ok rfl
  · exact fault

end Gives

end Dump
end AssocLint
