import TaskDiagram.Yaml.Event
import TaskDiagram.Yaml.Plain

/-!
# The document value of a YAML text

A text holds at most one document. References are replaced by what they refer to, as often as one
hundred times for each part of the document. Keys are texts; of a repeated key the last entry
holds.
-/

namespace TaskDiagram.Yaml

/-- The parts of a document, and where the anchored ones are. -/
structure Parts where
  events : Array Event
  /-- For each reference the number of its anchor. -/
  references : List (Nat × Nat)
  /-- For each number of an anchor the place of the node; later entries come first. -/
  places : List (Nat × Nat)

/-- The anchor of a node. -/
def Event.anchor? : Event → Option String
  | .scalar p .. | .sequenceStart p | .mappingStart p => p.anchor
  | _ => none

/-- Numbers the anchors and looks up the references. An anchor gets the number of names known
before it; a reference must come after its anchor. -/
def numberAnchors : (place : Nat) → (names : List (String × Nat)) → List Event → Parts →
    Option Parts
  | _, _, [], parts => some parts
  | place, names, e :: rest, parts =>
      match e with
      | .alias_ name =>
          match names.find? (·.1 == name) with
          | none => none
          | some (_, number) =>
              numberAnchors (place + 1) names rest
                { parts with references := (place, number) :: parts.references }
      | e =>
          match e.anchor? with
          | none => numberAnchors (place + 1) names rest parts
          | some name =>
              let number := names.length
              let names := (name, number) :: names.filter (·.1 != name)
              numberAnchors (place + 1) names rest
                { parts with places := (number, place) :: parts.places }

namespace Parts

def ofEvents? (events : List Event) : Option Parts :=
  numberAnchors 0 [] events ⟨events.toArray, [], []⟩

/-- The node a reference stands for. -/
def target? (p : Parts) (place : Nat) : Option Nat := do
  let (_, number) ← p.references.find? (·.1 == place)
  let (_, target) ← p.places.find? (·.1 == number)
  pure target

/-- References followed so far may not exceed this number. -/
def jumpLimit (p : Parts) : Nat := p.events.size * 100

/-- The key at a place, the place behind it, and the references followed so far. -/
def key? (p : Parts) (jumps place : Nat) : Option (String × Nat × Nat) := do
  match ← p.events[place]? with
  | .scalar _ text _ => pure (text, place + 1, jumps)
  | .alias_ _ =>
      if p.jumpLimit < jumps + 1 then failure
      let target ← p.target? place
      match ← p.events[target]? with
      | .scalar _ text _ => pure (text, place + 1, jumps + 1)
      | _ => failure
  | _ => failure

/-- Whether a tag is one of an application's own, which documents do not admit: an exclamation
mark and a name, which may be empty but must be a text. -/
def isLocalTag (props : Properties) : Bool :=
  match props.tag with
  | some (b :: name) => b == '!'.toNat && Text.isText name
  | _ => false

mutual

/-- The value at a place, the place behind it, and the references followed so far. -/
def value? (p : Parts) : (fuel depth jumps place : Nat) → Option (Json × Nat × Nat)
  | 0, _, _, _ => none
  | fuel + 1, depth, jumps, place => do
      match ← p.events[place]? with
      | .alias_ _ =>
          if p.jumpLimit < jumps + 1 then failure
          let target ← p.target? place
          let (value, _, jumps) ← value? p fuel depth (jumps + 1) target
          pure (value, place + 1, jumps)
      | .scalar props text plain =>
          if isLocalTag props then failure
          let value ← match props.tag with
            | some tag => taggedValue? tag text plain
            | none => untaggedValue? text plain
          pure (value, place + 1, jumps)
      | .sequenceStart props =>
          if isLocalTag props || depth == 0 then failure
          items? p fuel (depth - 1) jumps (place + 1) []
      | .mappingStart props =>
          if isLocalTag props || depth == 0 then failure
          entries? p fuel (depth - 1) jumps (place + 1) []
      | _ => failure

/-- The items from a place on; `done` holds those before it, latest first. -/
def items? (p : Parts) : (fuel depth jumps place : Nat) → (done : List Json) →
    Option (Json × Nat × Nat)
  | 0, _, _, _, _ => none
  | fuel + 1, depth, jumps, place, done => do
      if p.events[place]? == some .sequenceEnd then pure (.arr done.reverse, place + 1, jumps)
      else
        let (item, place, jumps) ← value? p fuel depth jumps place
        items? p fuel depth jumps place (item :: done)

/-- The entries from a place on; `done` holds those before it, latest first. -/
def entries? (p : Parts) : (fuel depth jumps place : Nat) → (done : Entries) →
    Option (Json × Nat × Nat)
  | 0, _, _, _, _ => none
  | fuel + 1, depth, jumps, place, done => do
      if p.events[place]? == some .mappingEnd then pure (.obj done.reverse, place + 1, jumps)
      else
        let (key, place, jumps) ← p.key? jumps place
        let (value, place, jumps) ← value? p fuel depth jumps place
        entries? p fuel depth jumps place ((key, value) :: done)

end

/-- Collections may be nested this deep. -/
def maxDepth : Nat := 128

/-- The value of the parts. -/
def toJson? (p : Parts) : Option Json :=
  let fuel := (p.jumpLimit + 2) * (p.events.size + 2) * 2
  (p.value? fuel maxDepth 0 0).map (·.1)

end Parts

/-- The value of a text, repeated keys included; nothing where the text has none. -/
def read (text : String) : Option Json := do
  let events ← events (← tokens text)
  if events.isEmpty then pure .null
  else (← Parts.ofEvents? events).toJson?

end TaskDiagram.Yaml
