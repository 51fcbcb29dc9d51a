import AssocLint.Cancel
import AssocLint.Matching
import AssocLint.Occurrence.Walk

/-!
# Analysis of implementation blocks

A finding is an occurrence that stands for a binding of its block, and could therefore be written
`Self::Name`. Blocks are analysed one by one and share nothing; `Analysis.ofBlocks` merges their
findings in the order of their places in the source, so neither the number of workers nor the order
in which blocks are finished shows.
-/

namespace AssocLint

/-- An occurrence and the binding that it stands for. -/
structure Finding where
  use : Occurrence
  binding : Binding

namespace Finding

def message : String :=
  "Used concrete type where associated type could be used instead"

def suggestion (finding : Finding) : String :=
  "Self::" ++ finding.binding.name

/-- The order of findings: by file, byte offsets, line and column, then by the name of the binding
and the kind of the occurrence. -/
def order (finding finding' : Finding) : Ordering :=
  let span := finding.use.span
  let span' := finding'.use.span
  (compare span.file span'.file).then <|
  (compare span.lo span'.lo).then <|
  (compare span.hi span'.hi).then <|
  (compare span.line span'.line).then <|
  (compare span.column span'.column).then <|
  (compare finding.binding.name finding'.binding.name).then <|
  compare finding.use.kind.rank finding'.use.kind.rank

/-- Findings in order; those with equal places keep theirs. -/
def sort (findings : List Finding) : List Finding :=
  findings.mergeSort fun finding finding' => (finding.order finding').isLE

end Finding

/-- What the analysis of one block gives. -/
structure BlockResult where
  index : BindingIndex
  findings : List Finding
  /-- How many occurrences were looked at. -/
  examined : Nat

namespace ImplBlock

/-- The occurrences in the methods of a block. -/
def occurrences (block : ImplBlock) : List Occurrence :=
  block.methods.flatMap Method.occurrences

/-- Analyses one block. Where no binding can be found, no occurrence is looked at. -/
def analyze (policy : Policy) (block : ImplBlock) : BlockResult :=
  let index := block.index
  if index.supported.isEmpty then ⟨index, [], 0⟩
  else
    let uses := block.occurrences
    let findings := uses.filterMap fun use => (index.firstMatch policy use).map (⟨use, ·⟩)
    ⟨index, Finding.sort findings, uses.length⟩

end ImplBlock

/-- What the analysis of several blocks gives. -/
structure Analysis where
  findings : List Finding
  /-- How many blocks there are. -/
  total : Nat
  /-- The positions of the blocks that were analysed. -/
  analyzed : List Nat

namespace Analysis

def skipped (analysis : Analysis) : Nat :=
  analysis.total - analysis.analyzed.length

/-- Whether a block was left out. -/
def isCancelled (analysis : Analysis) : Bool :=
  analysis.analyzed.length < analysis.total

/-- The blocks that are not left out, with their positions. -/
def started (blocks : List ImplBlock) (left : List Bool) : List (ImplBlock × Nat) :=
  (blocks.zipIdx.zip left).filterMap fun (block, isLeft) => if isLeft then none else some block

/-- The analysis of the blocks that are not left out. -/
def ofStarted (policy : Policy) (blocks : List ImplBlock) (left : List Bool) : Analysis :=
  let blocks' := started blocks left
  { findings := Finding.sort (blocks'.flatMap fun (block, _) => (block.analyze policy).findings)
    total := blocks.length
    analyzed := blocks'.map (·.2) }

/-- Analyses blocks with a number of workers. One worker takes them in turn and stops for good when
the flag is set; several ask for each block. -/
def ofBlocks (policy : Policy) (workers : Int) (flag : CancelFlag) (blocks : List ImplBlock) :
    Analysis × CancelFlag :=
  let (left, flag') :=
    if workers ≤ 1 || blocks.length ≤ 1 then flag.askInTurn blocks.length
    else flag.askEach blocks.length
  (ofStarted policy blocks left, flag')

end Analysis
end AssocLint
