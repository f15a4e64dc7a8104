import TaskDiagram.Program.Draft
import TaskDiagram.Program.Json
import TaskDiagram.Program.Merge
import TaskDiagram.Program.Shape

/-!
# Conversations

A conversation builds a program turn by turn: each turn brings an answer for the operator and a
draft of what is known so far. The first turn marked as finished ends it and yields the program the
drafts stand for.
-/

namespace TaskDiagram

structure Turn where
  answer : String
  draft : Program
  finished : Bool
  deriving DecidableEq, Repr

namespace Turn

def decode : Decoder Turn :=
  Fields.read "ConversationTurn" <|
    Turn.mk <$> .defaulted "answer" "" Decode.text
      <*> .defaulted "task" .empty Program.decodeEnvelope
      <*> .defaulted "finished" false Decode.bool

/-- What a reader of text looks for while it reads a turn. -/
def shape : Json.Shape :=
  .record [(["answer"], .text), (["task"], Program.envelopeShape), (["finished"], .bool)]

def toJson (t : Turn) : Json :=
  .obj [("answer", .str t.answer), ("finished", .bool t.finished),
    ("task", Program.envelope t.draft.toJson)]

end Turn

structure Conversation where
  draft : Program
  /-- Answers of the turns so far, in order. -/
  transcript : List String
  finished : Bool
  deriving DecidableEq, Repr

/-- What a turn led to. -/
inductive Outcome where
  | inProgress
  | finished (program : Program)
  deriving DecidableEq, Repr

/-- The conversation is over. -/
inductive ConversationError where
  | finished
  deriving DecidableEq, Repr

def ConversationError.message (session : String) : ConversationError → String
  | finished => "chat session " ++ session ++ " is already finished"

namespace Conversation

def new : Conversation := ⟨.placeholder, [], false⟩

def turnCount (c : Conversation) : Nat := c.transcript.length

/-- Folds a turn into the draft. -/
def apply (c : Conversation) (turn : Turn) : Except ConversationError (Outcome × Conversation) :=
  if c.finished then .error .finished
  else
    let draft := c.draft.merge turn.draft
    let next : Conversation := ⟨draft, c.transcript ++ [turn.answer], turn.finished⟩
    .ok (if turn.finished then .finished draft.normalize else .inProgress, next)

end Conversation

end TaskDiagram
