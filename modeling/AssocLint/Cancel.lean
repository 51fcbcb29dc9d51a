/-!
# Cancellation

A run may be told to stop. It never stops by itself: it asks a flag before each piece of work, and
leaves the work out when the answer is yes.
-/

namespace AssocLint

/-- A flag, by the answers that it gives to one question after another, and the number of questions
asked so far. -/
structure CancelFlag where
  answer : Nat → Bool
  asked : Nat := 0

namespace CancelFlag

def clear : CancelFlag where
  answer _ := false

def set : CancelFlag where
  answer _ := true

/-- The flag that is set after a number of questions. -/
def after (count : Nat) : CancelFlag where
  answer question := count ≤ question

def ask (flag : CancelFlag) : Bool × CancelFlag :=
  (flag.answer flag.asked, { flag with asked := flag.asked + 1 })

/-- Asks before each of a number of tasks until the first yes, which holds for all tasks after
it. -/
def askInTurn (flag : CancelFlag) : Nat → List Bool × CancelFlag
  | 0 => ([], flag)
  | tasks + 1 =>
    let (stop, flag') := flag.ask
    if stop then (List.replicate (tasks + 1) true, flag')
    else
      let (answers, flag'') := askInTurn flag' tasks
      (false :: answers, flag'')

/-- Asks before each of a number of tasks, whatever the answers are. -/
def askEach (flag : CancelFlag) : Nat → List Bool × CancelFlag
  | 0 => ([], flag)
  | tasks + 1 =>
    let (stop, flag') := flag.ask
    let (answers, flag'') := askEach flag' tasks
    (stop :: answers, flag'')

end CancelFlag
end AssocLint
