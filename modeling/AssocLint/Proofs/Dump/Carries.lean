import AssocLint.Proofs.Dump.Fields
import Mathlib.Data.List.Forall2

/-!
# Two readings side by side

`Carries result result' R` says that where a first reading succeeds a second one does so too, with
a value that `R` relates to the first. Of a first reading that fails it says nothing. The lemmas
pass it on through the ways in which readings are put together, as those of `Gives` do for one
reading.
-/

namespace AssocLint
namespace Dump

variable {α α' β β' : Type} {R : α → α' → Prop} {S : β → β' → Prop}

/-- Where a reading succeeds another one does so too, with a related value. -/
def Carries (result : DumpResult α) (result' : DumpResult α') (R : α → α' → Prop) : Prop :=
  ∀ value, result = .ok value → ∃ value', result' = .ok value' ∧ R value value'

namespace Carries

theorem ok {value : α} {value' : α'} (h : R value value') : Carries (.ok value) (.ok value') R := by
  rintro _ ⟨⟩
  exact ⟨value', rfl, h⟩

theorem fault {form : Form} {problem : DumpProblem} {result' : DumpResult α'} :
    Carries (form.fault problem) result' R := by
  intro value h
  cases h

theorem self (result : DumpResult α) : Carries result result Eq :=
  fun value h => ⟨value, h, rfl⟩

theorem mono {result : DumpResult α} {result' : DumpResult α'} {R' : α → α' → Prop}
    (h : Carries result result' R) (hmono : ∀ value value', R value value' → R' value value') :
    Carries result result' R' := by
  intro value hvalue
  obtain ⟨value', hvalue', hrel⟩ := h value hvalue
  exact ⟨value', hvalue', hmono value value' hrel⟩

/-- What is known of the first reading alone. -/
theorem and_gives {result : DumpResult α} {result' : DumpResult α'} {P : α → Prop}
    (h : Carries result result' R) (hgives : Gives result P) :
    Carries result result' fun value value' => R value value' ∧ P value := by
  intro value hvalue
  obtain ⟨value', hvalue', hrel⟩ := h value hvalue
  exact ⟨value', hvalue', hrel, hgives value hvalue⟩

theorem bind {result : DumpResult α} {result' : DumpResult α'} {next : α → DumpResult β}
    {next' : α' → DumpResult β'} (h : Carries result result' R)
    (hnext : ∀ value value', R value value' → Carries (next value) (next' value') S) :
    Carries (result >>= next) (result' >>= next') S := by
  cases result with
  | error fault =>
      intro value hvalue
      cases hvalue
  | ok value =>
      obtain ⟨value', rfl, hrel⟩ := h value rfl
      exact hnext value value' hrel

/-- Both readings begin with the same value. -/
theorem step {result result' : DumpResult α} {next : α → DumpResult β} {next' : α → DumpResult β'}
    (h : Carries result result' Eq) (hnext : ∀ value, Carries (next value) (next' value) S) :
    Carries (result >>= next) (result' >>= next') S :=
  h.bind fun value _ heq => heq ▸ hnext value

/-- What passes a check in the first reading passes it in the second. -/
theorem checked {failed failed' : Prop} [Decidable failed] [Decidable failed'] {form form' : Form}
    {problem problem' : DumpProblem} {next : PUnit → DumpResult β} {next' : PUnit → DumpResult β'}
    (hfailed : failed' → failed) (h : ¬ failed → Carries (next ⟨⟩) (next' ⟨⟩) S) :
    Carries (if failed then form.fault problem >>= next else next ⟨⟩)
      (if failed' then form'.fault problem' >>= next' else next' ⟨⟩) S := by
  by_cases hcheck : failed
  · rw [if_pos hcheck]
    intro value hvalue
    cases hvalue
  · rw [if_neg hcheck, if_neg (mt hfailed hcheck)]
    exact h hcheck

/-- A step of the first reading that the second leaves out. -/
theorem skip {result : DumpResult α} {next : α → DumpResult β} {result' : DumpResult β'}
    (h : ∀ value, Carries (next value) result' S) : Carries (result >>= next) result' S := by
  cases result with
  | error fault =>
      intro value hvalue
      cases hvalue
  | ok value => exact h value

theorem text {T : String → String → Prop} {form form' : Form} {value value' : Sexp}
    (h : Option.Rel T value.word? value'.word?) :
    Carries (form.text value) (form'.text value') T := by
  unfold Form.text
  generalize value.word? = word at h
  generalize value'.word? = word' at h
  cases h with
  | none => exact .fault
  | some h => exact .ok h

/-- A word that is the same in both documents. -/
theorem text_eq {form form' : Form} {value value' : Sexp} (h : value'.word? = value.word?) :
    Carries (form.text value) (form'.text value') Eq := by
  intro text htext
  have hword : value'.word? = some text := h.trans (Gives.text text htext)
  exact ⟨text, Form.text_eq_ok_iff.2 hword, rfl⟩

theorem mapM {T : β → β' → Prop} {read : β → DumpResult α} {read' : β' → DumpResult α'}
    (h : ∀ value value', T value value' → Carries (read value) (read' value') R)
    {values : List β} {values' : List β'} (hvalues : List.Forall₂ T values values') :
    Carries (values.mapM read) (values'.mapM read') (List.Forall₂ R) := by
  induction hvalues with
  | nil =>
      exact ok .nil
  | cons hvalue _ ih =>
      rw [List.mapM_cons, List.mapM_cons]
      exact (h _ _ hvalue).bind fun _ _ hresult => ih.bind fun _ _ hresults =>
        ok (.cons hresult hresults)

theorem optionMapM {T : β → β' → Prop} {read : β → DumpResult α} {read' : β' → DumpResult α'}
    (h : ∀ value value', T value value' → Carries (read value) (read' value') R)
    {value : Option β} {value' : Option β'} (hvalue : Option.Rel T value value') :
    Carries (value.mapM read) (value'.mapM read') (Option.Rel R) := by
  cases hvalue with
  | none => exact ok .none
  | some hvalue => exact (h _ _ hvalue).bind fun _ _ hresult => ok (.some hresult)

theorem mapValue {T : Sexp → Sexp → Prop} {read : Sexp → DumpResult α}
    {read' : Sexp → DumpResult α'}
    (h : ∀ value value', T value value' → Carries (read value) (read' value') R)
    {parts parts' : Form.Parts} {name : String}
    (hvalue : Option.Rel T (parts.value? name) (parts'.value? name)) :
    Carries (parts.mapValue name read) (parts'.mapValue name read') (Option.Rel R) := by
  unfold Form.Parts.mapValue
  generalize parts.value? name = value at hvalue
  generalize parts'.value? name = value' at hvalue
  cases hvalue with
  | none => exact ok .none
  | some hvalue => exact (h _ _ hvalue).bind fun _ _ hresult => ok (.some hresult)

/-- The value of a keyword that both readings read as the same. -/
theorem mapValue_eq {T : Sexp → Sexp → Prop} {read read' : Sexp → DumpResult α}
    (h : ∀ value value', T value value' → Carries (read value) (read' value') Eq)
    {parts parts' : Form.Parts} {name : String}
    (hvalue : Option.Rel T (parts.value? name) (parts'.value? name)) :
    Carries (parts.mapValue name read) (parts'.mapValue name read') Eq := by
  refine (mapValue h hvalue).mono fun result result' hresult => ?_
  cases hresult with
  | none => rfl
  | some heq => rw [heq]

end Carries

end Dump
end AssocLint
