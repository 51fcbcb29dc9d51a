/-!
# Grammar rules over the rest of a text

A `Rule` reads from a `Cursor` and either gives a value and the cursor after it, or fails and
leaves the text untouched. Choice is ordered and repetition is greedy.

Besides its answer a rule passes on how far the text was understood: the length of the shortest
rest at which a *named* rule has failed, in any branch tried so far. Rules without name count only
for the very first failure. After a failed reading that is where the text stops making sense.

A reading can also find a construct that the grammar admits and the reader does not support. The
cursor keeps the first such construct of the reading that is finally chosen; those met on the way
in abandoned branches are forgotten with the branch.
-/

namespace AssocLint

/-- The state of a reading. -/
structure Cursor where
  /-- The text still to be read. -/
  rest : List Char
  /-- The first unsupported construct read so far. -/
  unsupported : Option String := none

/-- A rule answers with a value and the cursor after it, or with `none`, and with the length of
the shortest rest at which a named rule has failed. There is no such length before anything has
failed. -/
def Rule (α : Type) : Type :=
  Cursor → Option Nat → Option (α × Cursor) × Option Nat

namespace Rule

variable {α β : Type}

instance : Monad Rule where
  pure value := fun cursor far => (some (value, cursor), far)
  bind rule next := fun cursor far =>
    match rule cursor far with
    | (some (value, cursor'), far') => next value cursor' far'
    | (none, far') => (none, far')

def fail : Rule α :=
  fun _ far => (none, far)

def orElse (rule : Rule α) (other : Unit → Rule α) : Rule α :=
  fun cursor far =>
    match rule cursor far with
    | (none, far') => other () cursor far'
    | answer => answer

instance : OrElse (Rule α) := ⟨orElse⟩

theorem bind_apply (rule : Rule α) (next : α → Rule β) (cursor : Cursor) (far : Option Nat) :
    (rule >>= next) cursor far =
      match rule cursor far with
      | (some (value, cursor'), far') => next value cursor' far'
      | (none, far') => (none, far') :=
  rfl

theorem orElse_apply (rule other : Rule α) (cursor : Cursor) (far : Option Nat) :
    (rule <|> other) cursor far =
      match rule cursor far with
      | (none, far') => other cursor far'
      | answer => answer :=
  rfl

/-- A rule that counts as understood up to where it fails. -/
def named (rule : Rule α) : Rule α :=
  fun cursor far =>
    match rule cursor far with
    | (none, far') => (none, some (far'.elim cursor.rest.length (min · cursor.rest.length)))
    | answer => answer

/-- The rule where it succeeds. It is not tried at the end of the text. -/
def optional (rule : Rule α) : Rule (Option α) :=
  fun cursor far =>
    if cursor.rest.isEmpty then
      (some (none, cursor), far)
    else
      match rule cursor far with
      | (some (value, cursor'), far') => (some (some value, cursor'), far')
      | (none, far') => (some (none, cursor), far')

/-- At most `count` successive readings of a rule. -/
def upTo (rule : Rule α) : Nat → Cursor → Option Nat → (List α × Cursor) × Option Nat
  | 0, cursor, far => (([], cursor), far)
  | count + 1, cursor, far =>
    if cursor.rest.isEmpty then
      (([], cursor), far)
    else
      match rule cursor far with
      | (none, far') => (([], cursor), far')
      | (some (value, cursor'), far') =>
        let ((values, cursor''), far'') := upTo rule count cursor' far'
        ((value :: values, cursor''), far'')

/-- The rule as often as it succeeds. Every reading takes at least one character, so there are no
more readings than characters. -/
def many (rule : Rule α) : Rule (List α) :=
  fun cursor far =>
    let (answer, far') := upTo rule cursor.rest.length cursor far
    (some answer, far')

/-- The rule as often as it succeeds, and at least once. -/
def many1 (rule : Rule α) : Rule (List α) := do
  match ← many rule with
  | [] => fail
  | values => pure values

/-- Reads with a function that splits a text into what it takes and what it leaves. It has no name,
so where it fails counts only if nothing has failed before. -/
def lexeme (split : List Char → Option (List Char × List Char)) : Rule (List Char) :=
  fun cursor far =>
    match split cursor.rest with
    | some (taken, rest) => (some (taken, { cursor with rest }), far)
    | none => (none, far.or (some cursor.rest.length))

/-- Exactly the given text. -/
def literal (text : String) : Rule Unit := do
  let chars := text.toList
  let _ ← lexeme fun rest =>
    if chars.isPrefixOf rest then some (chars, rest.drop chars.length) else none

/-- The rule's value together with the text that it took. -/
def taken (rule : Rule α) : Rule (α × List Char) :=
  fun cursor far =>
    match rule cursor far with
    | (some (value, cursor'), far') =>
      let text := cursor.rest.take (cursor.rest.length - cursor'.rest.length)
      (some ((value, text), cursor'), far')
    | (none, far') => (none, far')

/-- Notes an unsupported construct; the first one noted is kept. -/
def unsupported (construct : String) : Rule Unit :=
  fun cursor far =>
    (some ((), { cursor with unsupported := cursor.unsupported.or (some construct) }), far)

end Rule
end AssocLint
