import AssocLint.Reference.Rule

/-!
# What a rule gives

`rule.Yields P` says that the values of a rule have the property `P`, as far as they count: a
reading that meets an unsupported construct is refused in the end, so nothing is said of its value.
For this to go on through a sequence, no rule may forget a construct that was met before it, which
is the other half of the definition. Each way to put rules together passes both on.
-/

namespace AssocLint
namespace Rule

variable {α β : Type} {P : α → Prop} {rule : Rule α}

/-- A rule forgets no unsupported construct, and where none is met its values have a property. -/
def Yields (rule : Rule α) (P : α → Prop) : Prop :=
  ∀ cursor far value cursor' far', rule cursor far = (some (value, cursor'), far') →
    cursor'.unsupported = none → cursor.unsupported = none ∧ P value

theorem Yields.mono {Q : α → Prop} (h : rule.Yields P) (hPQ : ∀ value, P value → Q value) :
    rule.Yields Q := by
  intro cursor far value cursor' far' hread hnone
  have hvalue := h cursor far value cursor' far' hread hnone
  exact ⟨hvalue.1, hPQ value hvalue.2⟩

theorem Yields.pure {value : α} (h : P value) : (Pure.pure value : Rule α).Yields P := by
  intro cursor far value' cursor' far' hread hnone
  cases hread
  exact ⟨hnone, h⟩

theorem Yields.fail : (fail : Rule α).Yields P := by
  intro cursor far value cursor' far' hread _
  cases hread

/-- What the first rule gives is known only where the second one meets nothing unsupported, so the
second one is asked for its values under that condition. -/
theorem Yields.bind {next : α → Rule β} {Q : β → Prop} (h : rule.Yields P)
    (hnext : ∀ value, (next value).Yields fun result => P value → Q result) :
    (rule >>= next).Yields Q := by
  intro cursor far value cursor' far' hread hnone
  rw [bind_apply] at hread
  split at hread
  · rename_i first cursor₁ far₁ hfirst
    rcases hnext first cursor₁ far₁ value cursor' far' hread hnone with ⟨hnone₁, hvalue⟩
    rcases h cursor far first cursor₁ far₁ hfirst hnone₁ with ⟨hnone₀, hP⟩
    exact ⟨hnone₀, hvalue hP⟩
  · cases hread

/-- The value of a first rule that does not matter for the second one. -/
theorem Yields.step {next : α → Rule β} {Q : β → Prop} (h : rule.Yields P)
    (hnext : ∀ value, (next value).Yields Q) : (rule >>= next).Yields Q :=
  h.bind fun value => (hnext value).mono fun _ hQ _ => hQ

theorem Yields.orElse {other : Rule α} (h : rule.Yields P) (hother : other.Yields P) :
    (rule <|> other).Yields P := by
  intro cursor far value cursor' far' hread hnone
  rw [orElse_apply] at hread
  split at hread
  · exact hother _ _ _ _ _ hread hnone
  · exact h _ _ _ _ _ hread hnone

theorem Yields.named (h : rule.Yields P) : (named rule).Yields P := by
  intro cursor far value cursor' far' hread hnone
  unfold Rule.named at hread
  split at hread
  · cases hread
  · exact h _ _ _ _ _ hread hnone

theorem Yields.optional (h : rule.Yields P) :
    (optional rule).Yields fun value => ∀ found ∈ value, P found := by
  intro cursor far value cursor' far' hread hnone
  unfold Rule.optional at hread
  split at hread
  · cases hread
    exact ⟨hnone, nofun⟩
  · split at hread
    · rename_i found cursor₁ far₁ hfound
      cases hread
      rcases h _ _ _ _ _ hfound hnone with ⟨hnone₀, hP⟩
      refine ⟨hnone₀, ?_⟩
      rintro found ⟨⟩
      exact hP
    · cases hread
      exact ⟨hnone, nofun⟩

theorem Yields.upTo (h : rule.Yields P) (count : Nat) {cursor cursor' : Cursor}
    {far far' : Option Nat} {values : List α}
    (hread : upTo rule count cursor far = ((values, cursor'), far'))
    (hnone : cursor'.unsupported = none) : cursor.unsupported = none ∧ ∀ value ∈ values, P value := by
  induction count generalizing cursor far values far' with
  | zero =>
      cases hread
      exact ⟨hnone, nofun⟩
  | succ count ih =>
      unfold Rule.upTo at hread
      split at hread
      · cases hread
        exact ⟨hnone, nofun⟩
      · split at hread
        · cases hread
          exact ⟨hnone, nofun⟩
        · rename_i value cursor₁ far₁ hvalue
          cases hmore : Rule.upTo rule count cursor₁ far₁ with
          | mk answer far₂ =>
              rcases answer with ⟨more, cursor₂⟩
              rw [hmore] at hread
              cases hread
              rcases ih hmore with ⟨hnone₁, hrest⟩
              rcases h _ _ _ _ _ hvalue hnone₁ with ⟨hnone₀, hP⟩
              exact ⟨hnone₀, List.forall_mem_cons.2 ⟨hP, hrest⟩⟩

theorem Yields.many (h : rule.Yields P) :
    (many rule).Yields fun values => ∀ value ∈ values, P value := by
  intro cursor far values cursor' far' hread hnone
  unfold Rule.many at hread
  cases hmore : Rule.upTo rule cursor.rest.length cursor far with
  | mk answer far₁ =>
      rw [hmore] at hread
      cases hread
      exact Yields.upTo h _ hmore hnone

theorem Yields.many1 (h : rule.Yields P) :
    (many1 rule).Yields fun values => values ≠ [] ∧ ∀ value ∈ values, P value := by
  refine h.many.bind ?_
  intro values
  cases values with
  | nil =>
      exact .fail
  | cons value values =>
      exact .pure fun hvalues => ⟨List.cons_ne_nil _ _, hvalues⟩

theorem Yields.lexeme {split : List Char → Option (List Char × List Char)} {P : List Char → Prop}
    (h : ∀ text taken rest, split text = some (taken, rest) → P taken) :
    (lexeme split).Yields P := by
  intro cursor far value cursor' far' hread hnone
  unfold Rule.lexeme at hread
  split at hread
  · rename_i taken rest hsplit
    cases hread
    exact ⟨hnone, h _ _ _ hsplit⟩
  · cases hread

theorem Yields.literal (text : String) : (literal text).Yields fun _ => True :=
  Yields.bind (.lexeme (P := fun _ => True) fun _ _ _ _ => trivial) fun _ => .pure fun _ => trivial

theorem Yields.taken (h : rule.Yields P) : (taken rule).Yields fun value => P value.1 := by
  intro cursor far value cursor' far' hread hnone
  unfold Rule.taken at hread
  split at hread
  · rename_i found cursor₁ far₁ hfound
    cases hread
    exact h _ _ _ _ _ hfound hnone
  · cases hread

theorem Yields.unsupported (construct : String) : (unsupported construct).Yields fun _ => False := by
  intro cursor far value cursor' far' hread hnone
  cases hread
  cases hmet : cursor.unsupported <;> simp [hmet] at hnone

end Rule
end AssocLint
