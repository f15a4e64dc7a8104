import TaskDiagram.Grammar.Basic

/-!
# The standard grammar

Pick, process, place, under repetitions and conditions.
-/

namespace TaskDiagram.Grammar

/-- Bounds of a repeat count, and the count of a new repetition. -/
def repeatMin : Int64 := 1
def repeatMax : Int64 := 99
def repeatDefault : Int64 := 2

def logicKinds : List BlockKind := [.loop, .repeated, .when, .whenOtherwise]

/-- What may stand first in a branch. -/
def branchHeads : List BlockKind := .pick :: logicKinds

/-- What may stand first in the branches of a two-way condition. -/
def branchHeadsOrPlace : List BlockKind := .pick :: .place :: logicKinds

def eventKinds : List BlockKind := [.findObject, .sensorSignal, .humanFeedback]

/-- The body of a logic block and what follows it. -/
def logicSockets : List SocketSpec :=
  [⟨.body, branchHeads, false⟩, ⟨.next, logicKinds, false⟩]

/-- A block that names a library item. -/
def referenceSpec : BlockSpec :=
  ⟨[], [⟨fieldName, .text, none⟩, ⟨fieldId, .integer, none⟩], false⟩

def standardSpec : BlockKind → BlockSpec
  | .pick =>
      ⟨[⟨.object, [.objectRef], true⟩, ⟨.next, [.place, .processing], false⟩], [], true⟩
  | .place => ⟨[⟨.location, [.locationRef], true⟩], [], false⟩
  | .processing =>
      ⟨[⟨.action, [.actionRef], true⟩, ⟨.next, [.place, .processing, .whenOtherwise], false⟩],
        [], false⟩
  | .loop => ⟨logicSockets, [], true⟩
  | .repeated =>
      ⟨logicSockets, [⟨fieldTimes, .bounded repeatMin repeatMax, some (.int repeatDefault)⟩], true⟩
  | .when => ⟨⟨.when, eventKinds, true⟩ :: logicSockets, [], true⟩
  | .whenOtherwise =>
      ⟨[⟨.when, eventKinds, true⟩, ⟨.body, branchHeadsOrPlace, false⟩,
          ⟨.otherwise, branchHeadsOrPlace, false⟩, ⟨.next, logicKinds, false⟩], [], true⟩
  | .findObject => ⟨[⟨.object, [.objectRef], true⟩], [], false⟩
  | .sensorSignal => .bare
  | .humanFeedback => .bare
  | .objectRef => referenceSpec
  | .locationRef => referenceSpec
  | .actionRef => referenceSpec

def standard : Grammar where
  spec? kind := some (standardSpec kind)

end TaskDiagram.Grammar
