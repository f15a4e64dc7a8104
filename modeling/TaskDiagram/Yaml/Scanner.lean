import TaskDiagram.Yaml.Tag

/-!
# From text to tokens

Indentation opens and closes collections without any mark in the text. A key is known as such only
at the colon behind it: the places where a key may have begun are remembered, and the tokens that
open a key are spliced in at the end.
-/

namespace TaskDiagram.Yaml

/-- A place where a key may have begun. -/
structure KeyPlace where
  /-- Number of tokens before it. -/
  number : Nat
  /-- Whether nothing but a key may stand there. -/
  required : Bool
  cursor : Cursor

structure Scanner where
  cursor : Cursor
  /-- Columns of the collections around this place, innermost first; the last is `-1`. -/
  indents : List Int
  /-- For each bracket around this place, innermost first, and for the text itself: where a key
  may have begun. -/
  places : List (Option KeyPlace)
  /-- Whether a key may begin here. -/
  keyAllowed : Bool
  /-- Tokens so far, latest first. -/
  tokens : List Token
  /-- Tokens to be spliced in, with the number of tokens before them. -/
  splices : List (Nat × List Token)

namespace Scanner

def start (text : List Char) : Scanner where
  cursor := .start text
  indents := [-1]
  places := [none]
  keyAllowed := true
  tokens := []
  splices := []

/-- Whether this place is inside brackets. -/
def inFlow (s : Scanner) : Bool := 1 < s.places.length

def indent (s : Scanner) : Int := s.indents.headD (-1)

def column (s : Scanner) : Int := s.cursor.column

def emit (s : Scanner) (t : Token) : Scanner := { s with tokens := t :: s.tokens }

def moveTo (s : Scanner) (c : Cursor) : Scanner := { s with cursor := c }

def allowKey (s : Scanner) (allowed : Bool) : Scanner := { s with keyAllowed := allowed }

/-- Past byte order marks, blanks, comments and empty lines. -/
def skipGap : (fuel : Nat) → Scanner → Scanner
  | 0, s => s
  | fuel + 1, s =>
      let tabs := s.inFlow || !s.keyAllowed
      let c := s.cursor.skipByteOrderMark.skipWhile fun ch => ch == ' ' || (tabs && ch == '\t')
      let c := c.skipComment
      if c.has isBreak then
        skipGap fuel { s with cursor := c.skipBreak, keyAllowed := s.keyAllowed || !s.inFlow }
      else s.moveTo c

/-- Whether a key that may have begun at a place can still end here: on the same line, and within
1024 bytes. -/
def reaches (s : Scanner) (place : KeyPlace) : Bool :=
  place.cursor.line == s.cursor.line && s.cursor.index ≤ place.cursor.index + 1024

/-- Forgets the places whose keys can no longer end; a required key may not be missing. -/
def dropStale (s : Scanner) : Option Scanner := do
  let places ← s.places.mapM fun place =>
    match place with
    | none => some none
    | some place =>
        if s.reaches place then some (some place)
        else if place.required then none
        else some none
  pure { s with places }

/-- Closes the collections indented beyond a column. -/
def unroll (column : Int) : (fuel : Nat) → Scanner → Scanner
  | 0, s => s
  | fuel + 1, s =>
      match s.indents with
      | indent :: outer :: rest =>
          if column < indent then
            unroll column fuel ({ s with indents := outer :: rest }.emit .blockEnd)
          else s
      | _ => s

/-- Closes the collections indented beyond a column, outside brackets. -/
def unrollTo (s : Scanner) (column : Int) : Scanner :=
  if s.inFlow then s else unroll column (s.indents.length + 1) s

/-- Opens a collection at a column, unless it is open already. -/
def roll (s : Scanner) (column : Int) (t : Token) : Scanner :=
  if s.inFlow || column ≤ s.indent then s
  else { s with indents := column :: s.indents }.emit t

/-- Gives up the innermost place of a key, which must not be required. -/
def removePlace (s : Scanner) : Option Scanner :=
  match s.places with
  | some place :: rest => if place.required then none else some { s with places := none :: rest }
  | _ => some s

/-- Remembers this place as one where a key may begin. -/
def savePlace (s : Scanner) : Option Scanner :=
  if s.keyAllowed then do
    let place : KeyPlace :=
      ⟨s.tokens.length, !s.inFlow && s.indent == s.column, s.cursor⟩
    let s ← s.removePlace
    pure { s with places := some place :: s.places.drop 1 }
  else some s

/-- A directive or a mark at the limits of a document, given with the place behind it. -/
def atLimit (s : Scanner) (t : Token) (c : Cursor) : Option Scanner := do
  let s ← (s.unrollTo (-1)).removePlace
  pure (((s.allowKey false).emit t).moveTo c)

def openFlow (s : Scanner) (t : Token) : Option Scanner := do
  let s ← s.savePlace
  let s := { s with places := none :: s.places }
  pure (((s.allowKey true).emit t).moveTo s.cursor.skip)

def closeFlow (s : Scanner) (t : Token) : Option Scanner := do
  let s ← s.removePlace
  let s := if s.inFlow then { s with places := s.places.drop 1 } else s
  pure (((s.allowKey false).emit t).moveTo s.cursor.skip)

def flowEntry (s : Scanner) : Option Scanner := do
  let s ← s.removePlace
  pure (((s.allowKey true).emit .flowEntry).moveTo s.cursor.skip)

def blockEntry (s : Scanner) : Option Scanner := do
  if !s.inFlow && !s.keyAllowed then failure
  let s ← (s.roll s.column .blockSequenceStart).removePlace
  pure (((s.allowKey true).emit .blockEntry).moveTo s.cursor.skip)

def key (s : Scanner) : Option Scanner := do
  if !s.inFlow && !s.keyAllowed then failure
  let s ← (s.roll s.column .blockMappingStart).removePlace
  pure (((s.allowKey !s.inFlow).emit .key).moveTo s.cursor.skip)

def value (s : Scanner) : Option Scanner :=
  match s.places with
  | some place :: rest =>
      let column : Int := place.cursor.column
      let opens := !s.inFlow && s.indent < column
      let splice := if opens then [Token.blockMappingStart, .key] else [.key]
      let s := { s with
        places := none :: rest
        indents := if opens then column :: s.indents else s.indents
        splices := (place.number, splice) :: s.splices }
      some (((s.allowKey false).emit .value).moveTo s.cursor.skip)
  | _ => do
      if !s.inFlow && !s.keyAllowed then failure
      let s := s.roll s.column .blockMappingStart
      pure (((s.allowKey !s.inFlow).emit .value).moveTo s.cursor.skip)

/-- A token that may begin a key, given how it is read. -/
def leaf (s : Scanner) (read : Cursor → Option (Token × Cursor)) : Option Scanner := do
  let s ← s.savePlace
  let (t, c) ← read s.cursor
  pure (((s.allowKey false).emit t).moveTo c)

def block (s : Scanner) (literal : Bool) : Option Scanner := do
  let s ← s.removePlace
  let (text, c) ← readBlock literal s.indent s.cursor.skip
  pure (((s.allowKey true).emit (.scalar (String.ofList text) false)).moveTo c)

def quoted (s : Scanner) (quote : Char) : Option Scanner :=
  s.leaf fun c => do
    let (text, c) ← readQuotedFrom quote (c.rest.length + 1) [] c.skip
    pure (.scalar (String.ofList text) false, c)

def plain (s : Scanner) : Option Scanner := do
  let s ← s.savePlace
  let (text, c, broken) ← readPlainFrom s.inFlow (s.indent + 1).toNat (s.cursor.rest.length + 1)
    [] Gap.none s.cursor
  pure (((s.allowKey broken).emit (.scalar (String.ofList text) true)).moveTo c)

/-- Whether plain text may begin here. -/
def plainAhead (s : Scanner) : Bool :=
  let c := s.cursor
  let marks := "-?:,[]\x7b\x7d#&*!|>'\"%@`".toList
  (!c.blankAhead && !c.has marks.contains) || (c.sees '-' && !c.has isBlank 1) ||
    (!s.inFlow && (c.sees '?' || c.sees ':') && !c.blankAhead 1)

/-- The next token or tokens, with a token ahead. -/
def step (s : Scanner) : Option Scanner :=
  let c := s.cursor
  if c.column == 0 && c.sees '%' then do
    let s ← (s.unrollTo (-1)).removePlace
    let (t, c) ← readDirective c
    pure (((s.allowKey false).emit t).moveTo c)
  else if c.documentMark then
    s.atLimit (if c.sees '-' then .documentStart else .documentEnd) (c.skip 3)
  else if c.sees '[' then s.openFlow .flowSequenceStart
  else if c.sees '\x7b' then s.openFlow .flowMappingStart
  else if c.sees ']' then s.closeFlow .flowSequenceEnd
  else if c.sees '\x7d' then s.closeFlow .flowMappingEnd
  else if c.sees ',' then s.flowEntry
  else if c.sees '-' && c.blankAhead 1 then s.blockEntry
  else if c.sees '?' && (s.inFlow || c.blankAhead 1) then s.key
  else if c.sees ':' && (s.inFlow || c.blankAhead 1) then s.value
  else if c.sees '*' then s.leaf fun c => (readName c.skip).map fun (n, c) => (.alias_ n, c)
  else if c.sees '&' then s.leaf fun c => (readName c.skip).map fun (n, c) => (.anchor n, c)
  else if c.sees '!' then s.leaf fun c => (readTag s.inFlow c).map fun (t, c) => (.tag t, c)
  else if c.sees '|' && !s.inFlow then s.block true
  else if c.sees '>' && !s.inFlow then s.block false
  else if c.sees '\'' then s.quoted '\''
  else if c.sees '"' then s.quoted '"'
  else if s.plainAhead then s.plain
  else none

/-- The end of the text. -/
def finish (s : Scanner) : Option Scanner := (s.unrollTo (-1)).removePlace

/-- All tokens up to the end of the text. -/
def run : (fuel : Nat) → Scanner → Option Scanner
  | 0, _ => none
  | fuel + 1, s => do
      let s := skipGap (s.cursor.rest.length + 1) s
      let s ← s.dropStale
      let s := s.unrollTo s.column
      if s.cursor.atEnd then s.finish
      else
        let s ← s.step
        run fuel s

end Scanner

/-- Tokens with others spliced in; `splices` is ordered by the number of tokens before them. -/
def splice : (number : Nat) → List Token → List (Nat × List Token) → List Token
  | _, [], rest => rest.flatMap (·.2)
  | number, t :: tokens, splices =>
      let here := (splices.takeWhile (·.1 ≤ number)).flatMap (·.2)
      here ++ t :: splice (number + 1) tokens (splices.dropWhile (·.1 ≤ number))

/-- The tokens of a text, or nothing where the text is malformed. -/
def tokens (text : String) : Option (List Token) := do
  let cs := text.toList
  if !cs.all isAllowed then failure
  let s ← Scanner.run (cs.length + 2) (.start cs)
  let splices := s.splices.mergeSort fun a b => a.1 ≤ b.1
  pure (splice 0 s.tokens.reverse splices)

end TaskDiagram.Yaml
