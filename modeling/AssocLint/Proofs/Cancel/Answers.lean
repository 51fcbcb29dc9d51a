import AssocLint.Cancel

/-!
# Answers of a flag

What a flag answers to one question after another. Asked before each of several tasks, it gives each
task the next of its answers (`askEach_fst`). Asked in turn, it grants some of the tasks, up to its
first yes, and is not asked again (`Grants.askInTurn_fst` and `Grants.turns_eq`).
-/

namespace AssocLint
namespace CancelFlag

/-- The answers to the next questions. -/
def answers (flag : CancelFlag) (count : Nat) : List Bool :=
  (List.range count).map fun question => flag.answer (flag.asked + question)

/-- The questions asked in turn before tasks that stand from a position on: the position of each
task that is asked about, and the answer. -/
def turns (flag : CancelFlag) (position : Nat) : Nat → List (Nat × Bool)
  | 0 => []
  | tasks + 1 =>
    (position, flag.ask.1) ::
      if flag.ask.1 then [] else turns flag.ask.2 (position + 1) tasks

/-- A flag grants the first of some tasks: the answer is no before each of them, and yes before the
task after them, where there is one. -/
structure Grants (flag : CancelFlag) (tasks granted : Nat) : Prop where
  le : granted ≤ tasks
  no : ∀ question < granted, flag.answer (flag.asked + question) = false
  yes : granted < tasks → flag.answer (flag.asked + granted) = true

/-- A flag that is never set. -/
def IsClear (flag : CancelFlag) : Prop :=
  ∀ question, flag.answer question = false

theorem isClear_clear : clear.IsClear :=
  fun _ => rfl

/-! ## Asking before each task -/

theorem answers_succ (flag : CancelFlag) (count : Nat) :
    flag.answers (count + 1) = flag.ask.1 :: flag.ask.2.answers count := by
  simp only [answers, ask, List.range_succ_eq_map, List.map_cons, List.map_map, Nat.add_zero]
  congr 1
  apply List.map_congr_left
  intro question _
  simp only [Function.comp_apply, Nat.succ_eq_add_one, Nat.add_assoc, Nat.add_comm 1]

@[simp]
theorem length_answers (flag : CancelFlag) (count : Nat) : (flag.answers count).length = count := by
  simp [answers]

theorem answers_concat (flag : CancelFlag) (count : Nat) :
    flag.answers (count + 1) = flag.answers count ++ [flag.answer (flag.asked + count)] := by
  simp [answers, List.range_succ]

theorem askEach_fst (flag : CancelFlag) (tasks : Nat) :
    (flag.askEach tasks).1 = flag.answers tasks := by
  induction tasks generalizing flag with
  | zero =>
      rfl
  | succ tasks ih =>
      rw [answers_succ, ← ih]
      rfl

theorem answer_askEach (flag : CancelFlag) (tasks : Nat) :
    (flag.askEach tasks).2.answer = flag.answer := by
  induction tasks generalizing flag with
  | zero =>
      rfl
  | succ tasks ih =>
      exact ih flag.ask.2

/-! ## Asking in turn -/

theorem answer_askInTurn (flag : CancelFlag) (tasks : Nat) :
    (flag.askInTurn tasks).2.answer = flag.answer := by
  induction tasks generalizing flag with
  | zero =>
      rfl
  | succ tasks ih =>
      unfold askInTurn
      cases hanswer : flag.ask.1 with
      | true =>
          simp only [hanswer, if_true]
          rfl
      | false =>
          simp only [hanswer, Bool.false_eq_true, if_false]
          exact ih flag.ask.2

theorem map_fst_turns (flag : CancelFlag) (position tasks : Nat) :
    (flag.turns position tasks).map (·.1) =
      List.range' position (flag.turns position tasks).length := by
  induction tasks generalizing flag position with
  | zero =>
      rfl
  | succ tasks ih =>
      cases hanswer : flag.ask.1 <;> simp [turns, hanswer, List.range'_succ, ih]

theorem map_snd_turns (flag : CancelFlag) (position tasks : Nat) :
    (flag.turns position tasks).map (·.2) =
      flag.answers (flag.turns position tasks).length := by
  induction tasks generalizing flag position with
  | zero =>
      rfl
  | succ tasks ih =>
      cases hanswer : flag.ask.1 with
      | true =>
          have hyes : flag.answer flag.asked = true := hanswer
          simp [turns, hanswer, answers, hyes]
      | false =>
          simp [turns, hanswer, answers_succ, ih]

namespace Grants

variable {flag : CancelFlag} {tasks granted : Nat}

theorem zero (h : flag.answer flag.asked = true) : flag.Grants tasks 0 where
  le := Nat.zero_le _
  no _ hquestion := absurd hquestion (Nat.not_lt_zero _)
  yes _ := h

theorem succ (h : flag.answer flag.asked = false) (hrest : flag.ask.2.Grants tasks granted) :
    flag.Grants (tasks + 1) (granted + 1) where
  le := Nat.succ_le_succ hrest.le
  no question hquestion := by
    cases question with
    | zero =>
        exact h
    | succ question =>
        have hno := hrest.no question (Nat.lt_of_succ_lt_succ hquestion)
        rwa [ask, Nat.add_assoc, Nat.add_comm 1] at hno
  yes hgranted := by
    have hyes := hrest.yes (Nat.lt_of_succ_lt_succ hgranted)
    rwa [ask, Nat.add_assoc, Nat.add_comm 1] at hyes

theorem head (h : flag.Grants (tasks + 1) (granted + 1)) : flag.answer flag.asked = false :=
  h.no 0 (Nat.succ_pos _)

theorem tail (h : flag.Grants (tasks + 1) (granted + 1)) : flag.ask.2.Grants tasks granted where
  le := Nat.le_of_succ_le_succ h.le
  no question hquestion := by
    have hno := h.no (question + 1) (Nat.succ_lt_succ hquestion)
    rwa [Nat.add_comm question, ← Nat.add_assoc] at hno
  yes hgranted := by
    have hyes := h.yes (Nat.succ_lt_succ hgranted)
    rwa [Nat.add_comm granted, ← Nat.add_assoc] at hyes

/-- The tasks that are granted get a no, all others a yes. -/
theorem askInTurn_fst (h : flag.Grants tasks granted) :
    (flag.askInTurn tasks).1 =
      List.replicate granted false ++ List.replicate (tasks - granted) true := by
  induction tasks generalizing flag granted with
  | zero =>
      have hgranted : granted = 0 := Nat.le_zero.1 h.le
      subst hgranted
      rfl
  | succ tasks ih =>
      cases granted with
      | zero =>
          have hyes : flag.answer flag.asked = true := h.yes (Nat.succ_pos _)
          simp [askInTurn, ask, hyes]
      | succ granted =>
          have hrest := ih h.tail
          have hno := h.head
          simp only [ask] at hrest
          simp [askInTurn, ask, hno, hrest, List.replicate_succ]

/-- The tasks that are granted are asked about one after another, and then the one that is not. -/
theorem turns_eq (h : flag.Grants tasks granted) (position : Nat) :
    flag.turns position tasks =
      (List.range' position granted).map (·, false) ++
        if granted < tasks then [(position + granted, true)] else [] := by
  induction tasks generalizing flag granted position with
  | zero =>
      have hgranted : granted = 0 := Nat.le_zero.1 h.le
      subst hgranted
      rfl
  | succ tasks ih =>
      cases granted with
      | zero =>
          have hyes : flag.answer flag.asked = true := h.yes (Nat.succ_pos _)
          simp [turns, ask, hyes]
      | succ granted =>
          have hrest := ih h.tail (position + 1)
          have hno := h.head
          simp only [ask] at hrest
          simp [turns, ask, hno, hrest, List.range'_succ, Nat.add_assoc, Nat.add_comm 1]

end Grants

theorem exists_grants (flag : CancelFlag) (tasks : Nat) : ∃ granted, flag.Grants tasks granted := by
  induction tasks generalizing flag with
  | zero =>
      refine ⟨0, Nat.le_refl 0, ?_, ?_⟩
      · intro question hquestion
        exact absurd hquestion (Nat.not_lt_zero _)
      · intro hgranted
        exact absurd hgranted (Nat.lt_irrefl 0)
  | succ tasks ih =>
      cases hanswer : flag.answer flag.asked with
      | true =>
          exact ⟨0, .zero hanswer⟩
      | false =>
          obtain ⟨granted, hrest⟩ := ih flag.ask.2
          exact ⟨granted + 1, .succ hanswer hrest⟩

/-! ## A flag that is never set -/

namespace IsClear

variable {flag : CancelFlag} (h : flag.IsClear)
include h

theorem grants (tasks : Nat) : flag.Grants tasks tasks where
  le := Nat.le_refl _
  no _ _ := h _
  yes hgranted := absurd hgranted (Nat.lt_irrefl _)

theorem askInTurn_fst (tasks : Nat) : (flag.askInTurn tasks).1 = List.replicate tasks false := by
  rw [(h.grants tasks).askInTurn_fst, Nat.sub_self, List.replicate_zero, List.append_nil]

theorem answers_eq (count : Nat) : flag.answers count = List.replicate count false := by
  rw [answers, List.map_congr_left fun _ _ => h _, List.map_const', List.length_range]

end IsClear

end CancelFlag
end AssocLint
