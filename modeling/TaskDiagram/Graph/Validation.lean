import TaskDiagram.Graph.TopLevel
import TaskDiagram.Library.Catalog

/-!
# Findings about a diagram

The grammar keeps illegal links out, so what is found here is advice. The rules for branches and
for the top level follow what saving does: a diagram without findings is saved whole.
-/

namespace TaskDiagram.Graph

/-- A library block without an id, or with one the catalog does not have. -/
def referenceFindings (catalog : Option Catalog) (id : BlockId) (b : Block) : List Warning :=
  match b.kind.entity? with
  | none => []
  | some entity =>
      let known := match b.intField? fieldId, catalog with
        | none, _ => false
        | some item, some catalog => catalog.contains entity item
        | some _, none => true
      if known then []
      else [.about id (.unresolvedReference entity (b.textField? fieldName))]

/-- Required sockets that are empty. -/
def inputFindings (g : Graph) (id : BlockId) (b : Block) : List Warning :=
  match g.grammar.spec? b.kind with
  | none => []
  | some spec =>
      (spec.sockets.filter fun s => s.required && (b.inputs.get? s.name).isNone).map fun s =>
        .about id (.missingInput s.name)

def countFindings (id : BlockId) (b : Block) : List Warning :=
  if b.kind == .repeated && (b.field? fieldTimes).isNone then [.about id .missingRepeatCount]
  else []

/-- Steps that stand in a branch a second time and, inside a block, logic blocks; `seen` holds the
kinds of steps met before. -/
def branchFindings (g : Graph) (nested : Bool) : (seen : List StepKind) → List BlockId →
    List Warning
  | _, [] => []
  | seen, id :: rest =>
      match g.kind? id with
      | none => branchFindings g nested seen rest
      | some kind =>
          match kind.step? with
          | some step =>
              if seen.contains step then
                .about id (.duplicateStep step) :: branchFindings g nested seen rest
              else branchFindings g nested (step :: seen) rest
          | none =>
              if kind.isLogic && nested then
                .about id .nestedControl :: branchFindings g nested seen rest
              else branchFindings g nested seen rest

/-- The kinds of steps that stand in a branch. -/
def stepKinds (g : Graph) (branch : List BlockId) : List StepKind :=
  branch.filterMap fun id => (g.kind? id).bind BlockKind.step?

/-- Steps a branch needs and lacks. Inside a block it needs both ends of a movement, at the top
level only when there is any step at all. -/
def missingSteps (g : Graph) (owner : Option BlockId) (branch : List BlockId) : List Warning :=
  let present := g.stepKinds branch
  if present.isEmpty && owner.isNone then []
  else
    ([StepKind.pick, StepKind.place].filter (!present.contains ·)).map fun step =>
      ⟨owner, .missingStep step⟩

/-- All findings about one branch of `owner`, or about the top level. -/
def checkBranch (g : Graph) (owner : Option BlockId) (branch : List BlockId) : List Warning :=
  g.branchFindings owner.isSome [] branch ++ g.missingSteps owner branch

/-- The sockets in which a logic block holds steps. -/
def branchSockets (kind : BlockKind) : List SocketName :=
  if !kind.isLogic then []
  else if kind == .whenOtherwise then [.body, .otherwise]
  else [.body]

/-- Findings about one block and its branches. -/
def blockFindings (g : Graph) (catalog : Option Catalog) (id : BlockId) (b : Block) :
    List Warning :=
  referenceFindings catalog id b ++ g.inputFindings id b ++ countFindings id b ++
    (branchSockets b.kind).flatMap fun socket => g.checkBranch (some id) (g.branch id socket)

/-- All findings: those of loading, those about blocks, those about the top level. -/
def validate (g : Graph) (catalog : Option Catalog) : List Warning :=
  let top := g.topLevel
  g.pinned ++
    g.blocks.flatMap (fun (id, b) => g.blockFindings catalog id b) ++
    g.checkBranch none top.stepBlocks ++
    top.orphans.filterMap fun head =>
      (g.kind? head).map fun kind => .about head (.orphanChain kind)

end TaskDiagram.Graph
