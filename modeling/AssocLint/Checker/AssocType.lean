import AssocLint.Checker
import AssocLint.Number.Literal

/-!
# The rule for associated types

Reports every finding of the analysis of a crate: a concrete type that is used inside an
implementation block although an associated type of the block names it.

The rule has two options. `generic_policy` says how generic arguments are compared, and `workers`
how many workers analyse the blocks.
-/

namespace AssocLint
namespace AssocTypeRule

def name : String := "not-using-associated-type"

def id : String := "notUsingAssociatedType"

/-! ## Options -/

def policy? (option : Json) : Except String Policy :=
  let invalid := option.inspect ++ " is not a valid GenericArgPolicy"
  match option with
  | .string word => (Policy.ofKeyword? word).elim (.error invalid) .ok
  | _ => .error invalid

/-- The integer that an option stands for: a number without its fraction, or a text that is an
integer literal. -/
def integer? : Json → Except String Int
  | .int value => .ok value
  | .bool value => .ok (if value then 1 else 0)
  | .float value =>
    match value.truncate? with
    | some integer => .ok integer
    | none => .error ("cannot convert float " ++
        (if value == .nan then "NaN" else "infinity") ++ " to integer")
  | .string text =>
    match Literal.integer? text.toList with
    | some integer => .ok integer
    | none => .error ("invalid literal for int() with base 10: " ++ Text.quoted text)
  | value => .error ("int() argument must be a string, a bytes-like object or a real number, not '"
      ++ value.kindName ++ "'")

/-- The settings of the rule: the policy, and at least one worker. -/
structure Settings where
  policy : Policy
  workers : Int

def settings (options : Options) : Except String Settings := do
  let policy ← policy? ((options.lookup "generic_policy").getD (.string Policy.lenient.keyword))
  let workers ← integer? ((options.lookup "workers").getD (.int 1))
  return ⟨policy, max 1 workers⟩

/-! ## Examination -/

def diagnostic (finding : Finding) : Diagnostic where
  id := id
  message := Finding.message
  severity := .warning
  location := ⟨finding.use.span.file, finding.use.span.line, finding.use.span.column⟩
  bytes := (finding.use.span.lo, finding.use.span.hi)
  checker := name
  extra := "consider " ++ finding.suggestion ++ " instead of " ++ finding.binding.target.render
  evidence :=
    [("associated", finding.binding.name),
      ("concrete", finding.binding.target.render),
      ("occurrence", finding.use.ref.render),
      ("kind", finding.use.kind.keyword),
      ("function", finding.use.function)]

/-- Publishes the analysis of the crate, counts its blocks and says whether it was stopped. -/
def publish (analysis : Analysis) (flag : CancelFlag) (context : CheckerContext) :
    CheckerContext :=
  { context with
    flag := flag
    analysis := some analysis
    stats := (context.stats.set (name ++ "_blocks") (.count analysis.analyzed.length)).set
      (Checker.cancelledStat name) (.flag analysis.isCancelled) }

def examine (context : CheckerContext) : CheckerContext × Except String (List Diagnostic) :=
  match settings context.options with
  | .error reason => (context, .error reason)
  | .ok settings =>
    let (analysis, flag) :=
      Analysis.ofBlocks settings.policy settings.workers context.flag context.crate.impls
    (publish analysis flag context, .ok (analysis.findings.map diagnostic))

end AssocTypeRule

/-- The rule for associated types. -/
def Checker.assocType : Checker where
  name := AssocTypeRule.name
  description := "Concrete type used where an associated type could be used instead"
  ids := [AssocTypeRule.id]
  severity := .warning
  examine := AssocTypeRule.examine

/-- The checkers that every run knows. -/
def Registry.default : Registry :=
  Registry.ofList [.assocType]

end AssocLint
