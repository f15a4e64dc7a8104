import TaskDiagram.Session.Event

/-!
# Followers of a session

A bus hands every event published on it to all who follow at that moment. It keeps as many of the
latest events as its capacity says: a follower who falls further behind is told how many events it
missed and goes on with the oldest one kept. Publishing never fails; without followers an event is
not kept at all.
-/

namespace TaskDiagram

structure Bus where
  capacity : Nat
  /-- Number of events published to followers so far. -/
  published : Nat
  /-- The latest events, oldest first; at most `capacity` of them. -/
  kept : List GraphEvent
  /-- For each follower the number of the event it reads next; `none` once it has left. -/
  cursors : Array (Option Nat)
  /-- Whether more events may come. -/
  live : Bool

/-- What a follower gets when it asks for an event. -/
inductive Received where
  | event (e : GraphEvent)
  /-- So many events are lost. -/
  | lagged (missed : Nat)
  /-- Nothing yet. -/
  | empty
  /-- Nothing any more. -/
  | closed
  /-- The follower has left. -/
  | dropped

namespace Bus

/-- The least power of two that is at least `n`, among `2 ^ 0, …, 2 ^ fuel`. -/
def powerFor (n : Nat) : (fuel : Nat) → (power : Nat) → Nat
  | 0, power => power
  | fuel + 1, power => if n ≤ power then power else powerFor n fuel (2 * power)

/-- A bus that keeps at least one event; its capacity is the next power of two. -/
def new (capacity : Nat) : Bus where
  capacity := powerFor (max 1 capacity) 64 1
  published := 0
  kept := []
  cursors := #[]
  live := true

/-- Events kept unless something else is asked for. -/
def defaultCapacity : Nat := 256

/-- Number of followers. -/
def subscribers (b : Bus) : Nat := (b.cursors.filter Option.isSome).size

/-- The number of the follower that subscribes next. -/
def nextReceiver (b : Bus) : Nat := b.cursors.size

/-- Adds a follower of all events published from now on. -/
def subscribe (b : Bus) : Bus := { b with cursors := b.cursors.push (some b.published) }

/-- A follower leaves. -/
def unsubscribe (b : Bus) (receiver : Nat) : Bus :=
  { b with cursors := b.cursors.setIfInBounds receiver none }

/-- Hands an event to all followers. -/
def publish (b : Bus) (e : GraphEvent) : Bus :=
  if b.subscribers = 0 then b
  else
    let all := b.kept ++ [e]
    { b with published := b.published + 1, kept := all.drop (all.length - b.capacity) }

/-- Number of the oldest event kept. -/
def oldest (b : Bus) : Nat := b.published - b.kept.length

/-- No more events come. -/
def close (b : Bus) : Bus := { b with live := false }

/-- What a follower gets next, and the bus after it. -/
def receive (b : Bus) (receiver : Nat) : Received × Bus :=
  match b.cursors[receiver]?.join with
  | none => (.dropped, b)
  | some cursor =>
      let move := fun next => { b with cursors := b.cursors.setIfInBounds receiver (some next) }
      if cursor < b.oldest then (.lagged (b.oldest - cursor), move b.oldest)
      else
        match b.kept[cursor - b.oldest]? with
        | some e => (.event e, move (cursor + 1))
        | none => (if b.live then .empty else .closed, b)

/-- Everything a follower can get at once. -/
def drainWith (receiver : Nat) : (fuel : Nat) → Bus → List Received × Bus
  | 0, b => ([], b)
  | fuel + 1, b =>
      match b.receive receiver with
      | (.event e, b) =>
          let (rest, b) := drainWith receiver fuel b
          (.event e :: rest, b)
      | (.lagged n, b) =>
          let (rest, b) := drainWith receiver fuel b
          (.lagged n :: rest, b)
      | (_, b) => ([], b)

def drain (b : Bus) (receiver : Nat) : List Received × Bus :=
  drainWith receiver (b.kept.length + 1) b

/-- One line about the bus. -/
def summary (b : Bus) : String :=
  "EventBus \x7b subscribers: " ++ toString b.subscribers ++ " \x7d"

end Bus

end TaskDiagram
