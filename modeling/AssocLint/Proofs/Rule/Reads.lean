import AssocLint.Reference.Rule

/-!
# How a rule reads a text

`rule.Reads text value rest` says that a rule takes the front of a text, gives a value for it and
leaves the rest; `rule.Fails text` says that it reads nothing there. Neither depends on how far the
text was understood before, nor on the constructs met before, which are kept.

Rules are put together from readings and failures of their parts. As choice is ordered and
repetition greedy, a later alternative is read only where the earlier ones fail, and the readings of
a repetition (`ReadsMany`) end where the repeated rule fails.
-/

namespace AssocLint
namespace Rule

variable {α β : Type} {rule : Rule α}

/-- A rule reads the front of a text and leaves the rest. -/
def Reads (rule : Rule α) (text : List Char) (value : α) (rest : List Char) : Prop :=
  ∀ met far, ∃ far', rule ⟨text, met⟩ far = (some (value, ⟨rest, met⟩), far')

/-- A rule reads nothing at the front of a text. -/
def Fails (rule : Rule α) (text : List Char) : Prop :=
  ∀ met far, ∃ far', rule ⟨text, met⟩ far = (none, far')

/-- A rule reads one value after another, each of at least one character, until it fails. -/
inductive ReadsMany (rule : Rule α) : List Char → List α → List Char → Prop where
  | nil {text : List Char} : rule.Fails text → ReadsMany rule text [] text
  | cons {text middle rest : List Char} {value : α} {values : List α} :
      rule.Reads text value middle → middle.length < text.length →
      ReadsMany rule middle values rest → ReadsMany rule text (value :: values) rest

/-! ## Sequences and choices -/

theorem Reads.pure (value : α) (text : List Char) :
    (Pure.pure value : Rule α).Reads text value text :=
  fun _ far => ⟨far, rfl⟩

theorem Reads.bind {next : α → Rule β} {text middle rest : List Char} {first : α} {value : β}
    (h : rule.Reads text first middle) (hnext : (next first).Reads middle value rest) :
    (rule >>= next).Reads text value rest := by
  intro met far
  rcases h met far with ⟨far₁, hfirst⟩
  rcases hnext met far₁ with ⟨far₂, hsecond⟩
  refine ⟨far₂, ?_⟩
  rw [bind_apply, hfirst]
  exact hsecond

theorem Fails.bind {next : α → Rule β} {text : List Char} (h : rule.Fails text) :
    (rule >>= next).Fails text := by
  intro met far
  rcases h met far with ⟨far₁, hfirst⟩
  refine ⟨far₁, ?_⟩
  rw [bind_apply, hfirst]

theorem Reads.bindFails {next : α → Rule β} {text middle : List Char} {first : α}
    (h : rule.Reads text first middle) (hnext : (next first).Fails middle) :
    (rule >>= next).Fails text := by
  intro met far
  rcases h met far with ⟨far₁, hfirst⟩
  rcases hnext met far₁ with ⟨far₂, hsecond⟩
  refine ⟨far₂, ?_⟩
  rw [bind_apply, hfirst]
  exact hsecond

theorem Reads.orElse {text rest : List Char} {value : α} (h : rule.Reads text value rest)
    (other : Rule α) : (rule <|> other).Reads text value rest := by
  intro met far
  rcases h met far with ⟨far₁, hread⟩
  refine ⟨far₁, ?_⟩
  rw [orElse_apply, hread]

theorem Fails.orElse {other : Rule α} {text rest : List Char} {value : α} (h : rule.Fails text)
    (hother : other.Reads text value rest) : (rule <|> other).Reads text value rest := by
  intro met far
  rcases h met far with ⟨far₁, hfail⟩
  rcases hother met far₁ with ⟨far₂, hread⟩
  refine ⟨far₂, ?_⟩
  rw [orElse_apply, hfail]
  exact hread

theorem Fails.orElseFails {other : Rule α} {text : List Char} (h : rule.Fails text)
    (hother : other.Fails text) : (rule <|> other).Fails text := by
  intro met far
  rcases h met far with ⟨far₁, hfail⟩
  rcases hother met far₁ with ⟨far₂, hfail'⟩
  refine ⟨far₂, ?_⟩
  rw [orElse_apply, hfail]
  exact hfail'

theorem Reads.named {text rest : List Char} {value : α} (h : rule.Reads text value rest) :
    (named rule).Reads text value rest := by
  intro met far
  rcases h met far with ⟨far₁, hread⟩
  exact ⟨far₁, by rw [Rule.named, hread]⟩

theorem Fails.named {text : List Char} (h : rule.Fails text) : (named rule).Fails text := by
  intro met far
  rcases h met far with ⟨far₁, hfail⟩
  exact ⟨_, by rw [Rule.named, hfail]⟩

/-! ## Options and repetitions -/

theorem Reads.optional {text rest : List Char} {value : α} (h : rule.Reads text value rest)
    (hne : text ≠ []) : (optional rule).Reads text (some value) rest := by
  intro met far
  rcases h met far with ⟨far₁, hread⟩
  have hempty : text.isEmpty = false := by
    simpa using hne
  exact ⟨far₁, by simp only [Rule.optional, hempty, hread, Bool.false_eq_true, if_false]⟩

theorem Fails.optional {text : List Char} (h : rule.Fails text) :
    (optional rule).Reads text none text := by
  intro met far
  rcases h met far with ⟨far₁, hfail⟩
  unfold Rule.optional
  split
  · exact ⟨far, rfl⟩
  · exact ⟨far₁, by rw [hfail]⟩

/-- The bound on a repetition is not met before the text ends. -/
theorem ReadsMany.upTo {text rest : List Char} {values : List α}
    (h : ReadsMany rule text values rest) (met : Option String) {count : Nat}
    (hcount : text.length ≤ count) (far : Option Nat) :
    ∃ far', upTo rule count ⟨text, met⟩ far = ((values, ⟨rest, met⟩), far') := by
  induction h generalizing count far with
  | nil hfail =>
      cases count with
      | zero =>
          exact ⟨far, rfl⟩
      | succ count =>
          rcases hfail met far with ⟨far₁, hfail⟩
          unfold Rule.upTo
          split
          · exact ⟨far, rfl⟩
          · exact ⟨far₁, by rw [hfail]⟩
  | @cons text middle rest value values hread hshorter _ ih =>
      cases count with
      | zero =>
          omega
      | succ count =>
          rcases hread met far with ⟨far₁, hread⟩
          have hcount' : middle.length ≤ count := by omega
          rcases ih hcount' far₁ with ⟨far₂, hmore⟩
          have hempty : text.isEmpty = false := by
            cases text with
            | nil => cases hshorter
            | cons => rfl
          exact ⟨far₂, by
            simp only [Rule.upTo, hempty, hread, hmore, Bool.false_eq_true, if_false]⟩

theorem ReadsMany.many {text rest : List Char} {values : List α}
    (h : ReadsMany rule text values rest) : (many rule).Reads text values rest := by
  intro met far
  rcases h.upTo met (Nat.le_refl text.length) far with ⟨far₁, hread⟩
  exact ⟨far₁, by rw [Rule.many, hread]⟩

theorem ReadsMany.many1 {text rest : List Char} {values : List α}
    (h : ReadsMany rule text values rest) (hne : values ≠ []) :
    (many1 rule).Reads text values rest := by
  refine h.many.bind ?_
  cases values with
  | nil => exact absurd rfl hne
  | cons value values => exact .pure _ _

/-! ## Text -/

theorem Reads.lexeme {split : List Char → Option (List Char × List Char)}
    {text taken rest : List Char} (h : split text = some (taken, rest)) :
    (lexeme split).Reads text taken rest := by
  intro met far
  exact ⟨far, by simp only [Rule.lexeme, h]⟩

theorem Fails.lexeme {split : List Char → Option (List Char × List Char)} {text : List Char}
    (h : split text = none) : (lexeme split).Fails text := by
  intro met far
  exact ⟨far.or (some text.length), by simp only [Rule.lexeme, h]⟩

theorem Reads.literal (text : String) (rest : List Char) :
    (literal text).Reads (text.toList ++ rest) () rest := by
  have hsplit : (if text.toList.isPrefixOf (text.toList ++ rest) then
      some (text.toList, (text.toList ++ rest).drop text.toList.length) else none) =
        some (text.toList, rest) := by
    simp
  exact (Reads.lexeme hsplit).bind (.pure () rest)

theorem Fails.literal {text : String} {whole : List Char} (h : ¬ text.toList <+: whole) :
    (literal text).Fails whole := by
  refine (Fails.lexeme ?_).bind
  simp [h]

theorem Reads.taken {text rest : List Char} {value : α} (h : rule.Reads (text ++ rest) value rest) :
    (taken rule).Reads (text ++ rest) (value, text) rest := by
  intro met far
  rcases h met far with ⟨far₁, hread⟩
  refine ⟨far₁, ?_⟩
  simp [Rule.taken, hread]

theorem Fails.taken {text : List Char} (h : rule.Fails text) : (taken rule).Fails text := by
  intro met far
  rcases h met far with ⟨far₁, hfail⟩
  exact ⟨far₁, by simp only [Rule.taken, hfail]⟩

end Rule
end AssocLint
