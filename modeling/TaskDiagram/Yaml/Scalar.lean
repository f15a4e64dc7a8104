import TaskDiagram.Text.Hex
import TaskDiagram.Yaml.Cursor

/-!
# Texts within a YAML text

The four ways to write a text: plain, in single or double quotes, and as an indented block. Each
reader returns the text and the place behind it, or nothing where the text is malformed.

Between lines all of them fold: a single line break becomes a space, of several the first is
dropped. Blanks around line breaks are dropped.
-/

namespace TaskDiagram.Yaml

/-- Blanks and line breaks met between two words. -/
structure Gap where
  /-- Blanks, as long as no line break has been met. -/
  blanks : List Char
  first : List Char
  others : List Char
  broken : Bool

namespace Gap

def none : Gap := ⟨[], [], [], false⟩

/-- What a gap stands for in the text. -/
def fold (g : Gap) : List Char :=
  if !g.broken then g.blanks
  else if g.first == ['\n'] then (if g.others.isEmpty then [' '] else g.others)
  else g.first ++ g.others

end Gap

/-- Reads the gap ahead. With `limit`, a tab left of that column in a later line is refused. -/
def readGap (limit : Option Nat) : (fuel : Nat) → Gap → Cursor → Option (Gap × Cursor)
  | 0, g, c => some (g, c)
  | fuel + 1, g, c =>
      if c.has isBlank then
        if g.broken && c.sees '\t' && limit.any (c.column < ·) then Option.none
        else if g.broken then readGap limit fuel g c.skip
        else readGap limit fuel { g with blanks := g.blanks ++ c.rest.take 1 } c.skip
      else if c.has isBreak then
        let (br, c) := c.takeBreak
        if g.broken then readGap limit fuel { g with others := g.others ++ br } c
        else readGap limit fuel { g with blanks := [], first := br, broken := true } c
      else some (g, c)

/-! ## Plain text -/

/-- Characters that end plain text inside brackets. -/
def isFlowMark (ch : Char) : Bool :=
  ch == ',' || ch == '[' || ch == ']' || ch == '\x7b' || ch == '\x7d'

/-- Characters of plain text up to a blank or to a mark that ends it; `flow` inside brackets. -/
def readWord (flow : Bool) : (fuel : Nat) → Cursor → Option (List Char × Cursor)
  | 0, c => some ([], c)
  | fuel + 1, c =>
      if c.blankAhead then some ([], c)
      else if flow && c.sees ':' && c.has (fun ch => isFlowMark ch || ch == '?') 1 then none
      else if (c.sees ':' && c.blankAhead 1) || (flow && c.has isFlowMark) then some ([], c)
      else do
        let (word, after) ← readWord flow fuel c.skip
        pure (c.rest.take 1 ++ word, after)

/-- Plain text from a place on. `pending` is the gap before that place. The last result tells
whether a line break follows the text. -/
def readPlainFrom (flow : Bool) (indent : Nat) : (fuel : Nat) → (done : List Char) →
    (pending : Gap) → Cursor → Option (List Char × Cursor × Bool)
  | 0, done, pending, c => some (done, c, pending.broken)
  | fuel + 1, done, pending, c =>
      if c.documentMark || c.sees '#' then some (done, c, pending.broken)
      else do
        let (word, c) ← readWord flow (c.rest.length + 1) c
        let done := if word.isEmpty then done else done ++ pending.fold ++ word
        let pending := if word.isEmpty then pending else Gap.none
        if !(c.has isBlank || c.has isBreak) then pure (done, c, pending.broken)
        else
          let (gap, c) ← readGap (some indent) (c.rest.length + 1) pending c
          if !flow && c.column < indent then pure (done, c, gap.broken)
          else readPlainFrom flow indent fuel done gap c

/-! ## Quoted text -/

/-- The character with a number, if there is one. -/
def scalar? (n : Nat) : Option Char :=
  if n ≤ 0x10ffff && !(0xd800 ≤ n && n ≤ 0xdfff) then some (Char.ofNat n) else none

/-- The character written as `digits` hexadecimal digits. -/
def readCode (digits : Nat) (c : Cursor) : Option (Char × Cursor) := do
  let written := c.rest.take digits
  if written.length < digits then failure
  let value ← written.foldlM (fun n ch => (Text.hexValue? ch).map (n * 16 + ·)) 0
  let ch ← scalar? value
  pure (ch, c.skip digits)

/-- An escape whose backslash has been passed. -/
def readEscape (c : Cursor) : Option (Char × Cursor) := do
  let ch ← c.peek?
  let c := c.skip
  match ch with
  | '0' => pure ('\x00', c)
  | 'a' => pure ('\x07', c)
  | 'b' => pure ('\x08', c)
  | 't' | '\t' => pure ('\t', c)
  | 'n' => pure ('\n', c)
  | 'v' => pure ('\x0b', c)
  | 'f' => pure ('\x0c', c)
  | 'r' => pure ('\r', c)
  | 'e' => pure ('\x1b', c)
  | ' ' => pure (' ', c)
  | '"' => pure ('"', c)
  | '/' => pure ('/', c)
  | '\\' => pure ('\\', c)
  | 'N' => pure ('\u0085', c)
  | '_' => pure ('\u00a0', c)
  | 'L' => pure ('\u2028', c)
  | 'P' => pure ('\u2029', c)
  | 'x' => readCode 2 c
  | 'u' => readCode 4 c
  | 'U' => readCode 8 c
  | _ => failure

/-- Quoted text up to a blank, to the closing quote or behind an escaped line break, which the
last result reports. -/
def readQuotedWord (quote : Char) : (fuel : Nat) → Cursor → Option (List Char × Cursor × Bool)
  | 0, c => some ([], c, false)
  | fuel + 1, c =>
      let more := fun (ch : List Char) (c : Cursor) => do
        let (word, c, broken) ← readQuotedWord quote fuel c
        pure (ch ++ word, c, broken)
      if c.blankAhead then some ([], c, false)
      else if quote == '\'' && c.sees '\'' && c.sees '\'' 1 then more ['\''] (c.skip 2)
      else if c.sees quote then some ([], c, false)
      else if quote == '"' && c.sees '\\' then
        if c.has isBreak 1 then some ([], c.skip.skipBreak, true)
        else do
          let (ch, c) ← readEscape c.skip
          more [ch] c
      else more (c.rest.take 1) c.skip

/-- Quoted text behind its opening quote, and the place behind its closing one. -/
def readQuotedFrom (quote : Char) : (fuel : Nat) → (done : List Char) → Cursor →
    Option (List Char × Cursor)
  | 0, _, _ => none
  | fuel + 1, done, c => do
      if c.documentMark || c.atEnd then failure
      let (word, c, broken) ← readQuotedWord quote (c.rest.length + 1) c
      let done := done ++ word
      if c.sees quote then pure (done, c.skip)
      else
        let (gap, c) ← readGap none (c.rest.length + 1) { Gap.none with broken } c
        readQuotedFrom quote fuel (done ++ gap.fold) c

/-! ## Blocks -/

/-- What becomes of the line breaks at the end of a block. -/
inductive Chomp where
  | strip
  | clip
  | keep
  deriving DecidableEq

/-- Breaks of empty lines ahead. `indent` is `none` while it is still to be found out; `widest` is
the widest line of blanks so far. -/
def readBlockBreaks (indent : Option Nat) : (fuel : Nat) → (widest : Nat) → (done : List Char) →
    Cursor → Option (Nat × List Char × Cursor)
  | 0, widest, done, c => some (widest, done, c)
  | fuel + 1, widest, done, c =>
      let c := match indent with
        | some n => c.skip ((c.rest.take (n - c.column)).takeWhile (· == ' ')).length
        | none => c.skipWhile (· == ' ')
      let widest := max widest c.column
      if c.sees '\t' && indent.all (c.column < ·) then none
      else if c.has isBreak then
        let (br, c) := c.takeBreak
        readBlockBreaks indent fuel widest (done ++ br) c
      else some (widest, done, c)

/-- Lines of a block. `break_` is the break behind the lines so far, `breaks` those of the empty
lines after it, `blank` whether the last line began with a blank. -/
def readBlockLines (literal : Bool) (indent : Nat) : (fuel : Nat) →
    (done break_ breaks : List Char) → (blank : Bool) → Cursor →
    Option (List Char × List Char × List Char × Cursor)
  | 0, done, break_, breaks, _, c => some (done, break_, breaks, c)
  | fuel + 1, done, break_, breaks, blank, c =>
      if c.column == indent && !c.atEnd then do
        let startsBlank := c.has isBlank
        let joint :=
          if !literal && break_ == ['\n'] && !blank && !startsBlank then
            (if breaks.isEmpty then [' '] else [])
          else break_
        let (line, c) := c.takeWhile (!isBreak ·)
        let (break_, c) := c.takeBreak
        let (_, nextBreaks, c) ← readBlockBreaks (some indent) (c.rest.length + 1) 0 [] c
        readBlockLines literal indent fuel (done ++ joint ++ breaks ++ line) break_ nextBreaks
          startsBlank c
      else some (done, break_, breaks, c)

/-- Indentation and treatment of the end, as written behind the mark of a block. -/
def readBlockHeader (c : Cursor) : Option (Option Nat × Chomp × Cursor) :=
  let chomp? := fun (c : Cursor) =>
    if c.sees '+' then some Chomp.keep else if c.sees '-' then some Chomp.strip else none
  let digit? := fun (c : Cursor) =>
    (c.peek?.filter Char.isDigit).map fun ch => ch.toNat - 48
  match chomp? c with
  | some chomp =>
      match digit? c.skip with
      | some 0 => none
      | some n => some (some n, chomp, c.skip 2)
      | none => some (none, chomp, c.skip)
  | none =>
      match digit? c with
      | some 0 => none
      | some n =>
          match chomp? c.skip with
          | some chomp => some (some n, chomp, c.skip 2)
          | none => some (some n, .clip, c.skip)
      | none => some (none, .clip, c)

/-- A block behind its mark, inside a collection indented by `parent` columns, or by none. -/
def readBlock (literal : Bool) (parent : Int) (c : Cursor) : Option (List Char × Cursor) := do
  let (written, chomp, c) ← readBlockHeader c
  let c ← c.skipLineRest?
  let given := written.map fun n => (if 0 ≤ parent then parent.toNat + n else n)
  let (widest, breaks, c) ← readBlockBreaks given (c.rest.length + 1) 0 [] c
  let indent := given.getD (max widest (max (parent + 1).toNat 1))
  let (done, break_, breaks, c) ←
    readBlockLines literal indent (c.rest.length + 1) [] [] breaks false c
  let tail := match chomp with
    | .strip => []
    | .clip => break_
    | .keep => break_ ++ breaks
  pure (done ++ tail, c)

end TaskDiagram.Yaml
