import TaskDiagram.Graph.Walk

/-!
# The top level of a diagram

Which of the chains at the top level make up the program. A chain counts when the grammar lets its
head start one. It is split at its first logic block: what stands before are steps, the rest is the
chain of controls. Only the first chain with controls counts.
-/

namespace TaskDiagram

/-- A chain split at its first logic block. -/
structure RootChain where
  steps : List BlockId
  controls : List BlockId
  deriving DecidableEq, Repr

/-- The chains that count, and the heads of those that do not. -/
structure TopLevel where
  chains : List RootChain
  orphans : List BlockId
  deriving DecidableEq, Repr

namespace Graph

def isLogicBlock (g : Graph) (id : BlockId) : Bool :=
  ((g.kind? id).map BlockKind.isLogic).getD false

def rootChain (g : Graph) (head : BlockId) : RootChain :=
  let chain := g.chain head
  ⟨chain.takeWhile (!g.isLogicBlock ·), chain.dropWhile (!g.isLogicBlock ·)⟩

/-- Sorts roots; `taken` tells whether a chain with controls has been met. -/
def topLevelOf (g : Graph) : (taken : Bool) → List BlockId → TopLevel
  | _, [] => ⟨[], []⟩
  | taken, head :: rest =>
      match g.kind? head with
      | none => topLevelOf g taken rest
      | some kind =>
          let chain := g.rootChain head
          if !g.grammar.isRoot kind || (taken && !chain.controls.isEmpty) then
            let top := topLevelOf g taken rest
            { top with orphans := head :: top.orphans }
          else
            let top := topLevelOf g (taken || !chain.controls.isEmpty) rest
            { top with chains := chain :: top.chains }

def topLevel (g : Graph) : TopLevel := g.topLevelOf false g.roots

end Graph

/-- The blocks before the controls, in order. -/
def TopLevel.stepBlocks (top : TopLevel) : List BlockId := top.chains.flatMap (·.steps)

/-- The logic blocks of the program and what stands between them. -/
def TopLevel.controlBlocks (top : TopLevel) : List BlockId := top.chains.flatMap (·.controls)

end TaskDiagram
