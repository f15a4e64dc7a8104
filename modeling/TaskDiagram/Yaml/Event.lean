import TaskDiagram.Yaml.Scanner

/-!
# The structure of a YAML text

Tokens become a flat list in which collections are bracketed by their start and end. Whether the
tokens fit together is decided here; what a node means is not.
-/

namespace TaskDiagram.Yaml

/-- What may stand in front of a node. -/
structure Properties where
  anchor : Option String
  /-- The bytes of the tag. -/
  tag : Option (List Nat)
  deriving DecidableEq, Repr

inductive Event where
  | alias_ (name : String)
  | scalar (properties : Properties) (text : String) (plain : Bool)
  | sequenceStart (properties : Properties)
  | sequenceEnd
  | mappingStart (properties : Properties)
  | mappingEnd
  deriving DecidableEq, Repr

namespace Event

/-- A node that is not written at all. -/
def absent : Event := .scalar ⟨none, none⟩ "" true

end Event

/-- The bytes the handles of tags stand for. -/
abbrev Handles := List (String × List Nat)

def standardHandles : Handles :=
  [("!", Text.toBytes "!"), ("!!", Text.toBytes "tag:yaml.org,2002:")]

def resolveTag? (handles : Handles) (tag : TagName) : Option (List Nat) :=
  if tag.handle.isEmpty then some tag.suffix
  else (handles.find? (·.1 == tag.handle)).map fun (_, start) => start ++ tag.suffix

/-- Anchor and tag in either order. -/
def readProperties (handles : Handles) : List Token → Option (Properties × List Token)
  | .anchor a :: .tag t :: rest | .tag t :: .anchor a :: rest => do
      let tag ← resolveTag? handles t
      pure (⟨some a, some tag⟩, rest)
  | .anchor a :: rest => some (⟨some a, none⟩, rest)
  | .tag t :: rest => do
      let tag ← resolveTag? handles t
      pure (⟨none, some tag⟩, rest)
  | rest => some (⟨none, none⟩, rest)

/-- Whether one of these tokens is ahead, or none at all. -/
def ahead (stops : List Token) : List Token → Bool
  | [] => true
  | t :: _ => stops.contains t

mutual

/-- One node. `block` admits collections without brackets, `indentless` a sequence that is not
indented beyond the mapping around it. -/
def readNode (handles : Handles) : (fuel : Nat) → (block indentless : Bool) → List Token →
    Option (List Event × List Token)
  | 0, _, _, _ => none
  | fuel + 1, block, indentless, tokens =>
      match tokens with
      | .alias_ name :: rest => some ([.alias_ name], rest)
      | tokens => do
          let (props, rest) ← readProperties handles tokens
          match rest with
          | .blockEntry :: _ =>
              if indentless then
                let (items, rest) ← readIndentless handles fuel rest
                pure (.sequenceStart props :: items, rest)
              else if props.anchor.isSome || props.tag.isSome then
                pure ([.scalar props "" true], rest)
              else failure
          | .scalar text plain :: rest => pure ([.scalar props text plain], rest)
          | .flowSequenceStart :: rest =>
              let (items, rest) ← readFlowSequence handles fuel true rest
              pure (.sequenceStart props :: items, rest)
          | .flowMappingStart :: rest =>
              let (entries, rest) ← readFlowMapping handles fuel true rest
              pure (.mappingStart props :: entries, rest)
          | .blockSequenceStart :: inner =>
              if block then
                let (items, rest) ← readBlockSequence handles fuel inner
                pure (.sequenceStart props :: items, rest)
              else if props.anchor.isSome || props.tag.isSome then
                pure ([.scalar props "" true], rest)
              else failure
          | .blockMappingStart :: inner =>
              if block then
                let (entries, rest) ← readBlockMapping handles fuel inner
                pure (.mappingStart props :: entries, rest)
              else if props.anchor.isSome || props.tag.isSome then
                pure ([.scalar props "" true], rest)
              else failure
          | rest =>
              if props.anchor.isSome || props.tag.isSome then
                pure ([.scalar props "" true], rest)
              else failure

/-- A node, or an absent one before the tokens that may follow it. -/
def readNodeOr (handles : Handles) : (fuel : Nat) → (stops : List Token) →
    (block indentless : Bool) → List Token → Option (List Event × List Token)
  | 0, _, _, _, _ => none
  | fuel + 1, stops, block, indentless, tokens =>
      if ahead stops tokens then some ([.absent], tokens)
      else readNode handles fuel block indentless tokens

/-- Items of an indented sequence up to its end. -/
def readBlockSequence (handles : Handles) : (fuel : Nat) → List Token →
    Option (List Event × List Token)
  | 0, _ => none
  | fuel + 1, .blockEntry :: rest => do
      let (item, rest) ← readNodeOr handles fuel [.blockEntry, .blockEnd] true false rest
      let (items, rest) ← readBlockSequence handles fuel rest
      pure (item ++ items, rest)
  | _ + 1, .blockEnd :: rest => some ([.sequenceEnd], rest)
  | _ + 1, _ => none

/-- Items of a sequence that is not indented. -/
def readIndentless (handles : Handles) : (fuel : Nat) → List Token →
    Option (List Event × List Token)
  | 0, _ => none
  | fuel + 1, .blockEntry :: rest => do
      let (item, rest) ←
        readNodeOr handles fuel [.blockEntry, .key, .value, .blockEnd] true false rest
      let (items, rest) ← readIndentless handles fuel rest
      pure (item ++ items, rest)
  | _ + 1, rest => some ([.sequenceEnd], rest)

/-- Entries of an indented mapping up to its end. -/
def readBlockMapping (handles : Handles) : (fuel : Nat) → List Token →
    Option (List Event × List Token)
  | 0, _ => none
  | fuel + 1, tokens =>
      let stops := [Token.key, .value, .blockEnd]
      match tokens with
      | .blockEnd :: rest => some ([.mappingEnd], rest)
      | .key :: rest => do
          let (key, rest) ← readNodeOr handles fuel stops true true rest
          let (value, rest) ← match rest with
            | .value :: rest => readNodeOr handles fuel stops true true rest
            | rest => some ([.absent], rest)
          let (entries, rest) ← readBlockMapping handles fuel rest
          pure (key ++ value ++ entries, rest)
      | _ => none

/-- Items of a sequence in brackets up to its end; `first` before the first one. -/
def readFlowSequence (handles : Handles) : (fuel : Nat) → (first : Bool) → List Token →
    Option (List Event × List Token)
  | 0, _, _ => none
  | fuel + 1, first, tokens => do
      match tokens with
      | .flowSequenceEnd :: rest => pure ([.sequenceEnd], rest)
      | tokens =>
          let tokens ← match first, tokens with
            | true, tokens => some tokens
            | false, .flowEntry :: rest => some rest
            | false, _ => none
          match tokens with
          | .flowSequenceEnd :: rest => pure ([.sequenceEnd], rest)
          | .key :: rest =>
              let (pair, rest) ← readFlowPair handles fuel rest
              let (items, rest) ← readFlowSequence handles fuel false rest
              pure (pair ++ items, rest)
          | tokens =>
              let (item, rest) ← readNode handles fuel false false tokens
              let (items, rest) ← readFlowSequence handles fuel false rest
              pure (item ++ items, rest)

/-- A single entry inside a sequence in brackets. Without a key the token behind the mark of the
key is passed over. -/
def readFlowPair (handles : Handles) : (fuel : Nat) → List Token →
    Option (List Event × List Token)
  | 0, _ => none
  | fuel + 1, tokens => do
      let (key, rest) ←
        if ahead [.value, .flowEntry, .flowSequenceEnd] tokens then
          some ([Event.absent], tokens.drop 1)
        else readNode handles fuel false false tokens
      let (value, rest) ← match rest with
        | .value :: rest =>
            readNodeOr handles fuel [.flowEntry, .flowSequenceEnd] false false rest
        | rest => some ([.absent], rest)
      pure (.mappingStart ⟨none, none⟩ :: key ++ value ++ [.mappingEnd], rest)

/-- Entries of a mapping in brackets up to its end; `first` before the first one. -/
def readFlowMapping (handles : Handles) : (fuel : Nat) → (first : Bool) → List Token →
    Option (List Event × List Token)
  | 0, _, _ => none
  | fuel + 1, first, tokens => do
      match tokens with
      | .flowMappingEnd :: rest => pure ([.mappingEnd], rest)
      | tokens =>
          let tokens ← match first, tokens with
            | true, tokens => some tokens
            | false, .flowEntry :: rest => some rest
            | false, _ => none
          match tokens with
          | .flowMappingEnd :: rest => pure ([.mappingEnd], rest)
          | .key :: rest =>
              let (key, rest) ←
                readNodeOr handles fuel [.value, .flowEntry, .flowMappingEnd] false false rest
              let (value, rest) ← match rest with
                | .value :: rest =>
                    readNodeOr handles fuel [.flowEntry, .flowMappingEnd] false false rest
                | rest => some ([.absent], rest)
              let (entries, rest) ← readFlowMapping handles fuel false rest
              pure (key ++ value ++ entries, rest)
          | tokens =>
              let (key, rest) ← readNode handles fuel false false tokens
              let (entries, rest) ← readFlowMapping handles fuel false rest
              pure (key ++ .absent :: entries, rest)

end

/-- The directives before a document. A version must be known and given once, a handle given
once. -/
def readDirectives : (version : Bool) → Handles → List Token → Option (Handles × List Token)
  | version, handles, .versionDirective major minor :: rest =>
      if version || major != 1 || (minor != 1 && minor != 2) then none
      else readDirectives true handles rest
  | version, handles, .tagDirective handle start :: rest =>
      if handles.any (·.1 == handle) then none
      else readDirectives version (handles ++ [(handle, start)]) rest
  | _, handles, rest => some (handles, rest)

/-- Whether a token stands before a document or at its limits. -/
def isLimit : Token → Bool
  | .versionDirective .. | .tagDirective .. | .documentStart | .documentEnd => true
  | _ => false

/-- The structure of the only document of a text; nothing stands for a text without one. -/
def events (tokens : List Token) : Option (List Event) := do
  let fuel := 4 * tokens.length + 8
  let explicit := match tokens with
    | .versionDirective .. :: _ | .tagDirective .. :: _ | .documentStart :: _ => true
    | _ => false
  if tokens.isEmpty then pure []
  else
    let (content, rest) ←
      if explicit then do
        let (handles, rest) ← readDirectives false [] tokens
        match rest with
        | .documentStart :: rest =>
            match rest with
            | [] => pure ([.absent], rest)
            | t :: _ =>
                if isLimit t then pure ([.absent], rest)
                else readNode (handles ++ standardHandles) fuel true false rest
        | _ => failure
      else readNode standardHandles fuel true false tokens
    match rest.dropWhile (· == .documentEnd) with
    | [] => pure content
    | _ :: _ => failure

end TaskDiagram.Yaml
