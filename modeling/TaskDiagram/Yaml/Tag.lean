import TaskDiagram.Text.Utf8
import TaskDiagram.Yaml.Scalar
import TaskDiagram.Yaml.Token

/-!
# Names within a YAML text

Anchors, tags and directives. A tag is a sequence of bytes, which need not be a text.
-/

namespace TaskDiagram.Yaml

/-- The name of an anchor or of a reference to one, behind its mark. -/
def readName (c : Cursor) : Option (String × Cursor) :=
  let (name, c) := c.takeWhile isWord
  let ends := c.blankAhead || c.has fun ch =>
    ch == '?' || ch == ':' || ch == ',' || ch == ']' || ch == '\x7d' || ch == '%' || ch == '@' ||
      ch == '`'
  if name.isEmpty || !ends then none else some (String.ofList name, c)

/-- Characters of a tag besides those of names; brackets and commas only where the tag is written
between angle brackets. -/
def isTagMark (verbatim : Bool) (ch : Char) : Bool :=
  ";/?:@&=+$.!~*'()".toList.contains ch || (verbatim && ",[]".toList.contains ch)

/-- The number of bytes that follow a first byte, going by its highest bits. -/
def following? (byte : Nat) : Option Nat :=
  if byte < 0x80 then some 0
  else if 0xc0 ≤ byte && byte < 0xe0 then some 1
  else if 0xe0 ≤ byte && byte < 0xf0 then some 2
  else if 0xf0 ≤ byte && byte < 0xf8 then some 3
  else none

/-- One byte written as a percent sign and two digits. -/
def readPercentByte (c : Cursor) : Option (Nat × Cursor) := do
  if !c.sees '%' then failure
  let high ← (c.skip.peek?).bind Text.hexValue?
  let low ← ((c.skip 2).peek?).bind Text.hexValue?
  pure (high * 16 + low, c.skip 3)

/-- Bytes that continue a character. -/
def readPercentMore : (count : Nat) → Cursor → Option (List Nat × Cursor)
  | 0, c => some ([], c)
  | count + 1, c => do
      let (byte, c) ← readPercentByte c
      if byte / 64 != 2 then failure
      let (more, c) ← readPercentMore count c
      pure (byte :: more, c)

/-- The bytes of one character, written with percent signs. That they stand for a character at all
is not asked. -/
def readPercent (c : Cursor) : Option (List Nat × Cursor) := do
  let (byte, c) ← readPercentByte c
  let (more, c) ← readPercentMore (← following? byte) c
  pure (byte :: more, c)

/-- The bytes of a tag. -/
def readTagText (verbatim : Bool) : (fuel : Nat) → Cursor → Option (List Nat × Cursor)
  | 0, c => some ([], c)
  | fuel + 1, c =>
      if c.sees '%' then do
        let (bytes, c) ← readPercent c
        let (rest, c) ← readTagText verbatim fuel c
        pure (bytes ++ rest, c)
      else if c.has (fun ch => isWord ch || isTagMark verbatim ch) then do
        let (rest, after) ← readTagText verbatim fuel c.skip
        pure ((c.rest.take 1).map Char.toNat ++ rest, after)
      else some ([], c)

/-- What counts of the bytes of a tag: those before the first zero. -/
def tagBytes (written : List Nat) : List Nat := written.takeWhile (· != 0)

/-- The bytes of a tag, of which something must be written. -/
def readTagUri (verbatim : Bool) (c : Cursor) : Option (List Nat × Cursor) := do
  let (written, c) ← readTagText verbatim (c.rest.length + 1) c
  if written.isEmpty then failure
  pure (tagBytes written, c)

/-- An exclamation mark, a name, and another exclamation mark if it is there. -/
def readHandle (c : Cursor) : Option (List Char × Cursor) :=
  if !c.sees '!' then none
  else
    let (name, c) := c.skip.takeWhile isWord
    if c.sees '!' then some ('!' :: name ++ ['!'], c.skip) else some ('!' :: name, c)

/-- A tag, in brackets or not; `flow` inside a collection in brackets. -/
def readTag (flow : Bool) (c : Cursor) : Option (TagName × Cursor) := do
  let (tag, c) ←
    if c.sees '<' 1 then do
      let (uri, c) ← readTagUri true (c.skip 2)
      if !c.sees '>' then failure
      pure ((⟨"", uri⟩ : TagName), c.skip)
    else do
      let (handle, c) ← readHandle c
      if 1 < handle.length && handle.getLast? == some '!' then
        let (uri, c) ← readTagUri false c
        pure (⟨String.ofList handle, uri⟩, c)
      else
        let (more, c) ← readTagText false (c.rest.length + 1) c
        let suffix := tagBytes ((handle.drop 1).map Char.toNat ++ more)
        if suffix.isEmpty then pure (⟨"", Text.toBytes "!"⟩, c)
        else pure (⟨"!", suffix⟩, c)
  if c.blankAhead || (flow && c.sees ',') then pure (tag, c) else failure

/-- A number of a version. -/
def readVersionNumber (c : Cursor) : Option (Nat × Cursor) :=
  let (digits, c) := c.takeWhile Char.isDigit
  if digits.isEmpty || 9 < digits.length then none
  else some (digits.foldl (fun n ch => n * 10 + (ch.toNat - 48)) 0, c)

/-- A line that begins with a percent sign. -/
def readDirective (c : Cursor) : Option (Token × Cursor) := do
  let (name, c) := c.skip.takeWhile isWord
  if name.isEmpty || !c.blankAhead then failure
  let c := c.skipWhile isBlank
  let (token, c) ←
    if name == "YAML".toList then do
      let (major, c) ← readVersionNumber c
      if !c.sees '.' then failure
      let (minor, c) ← readVersionNumber c.skip
      pure (Token.versionDirective major minor, c)
    else if name == "TAG".toList then do
      let (handle, c) ← readHandle c
      if handle != ['!'] && handle.getLast? != some '!' then failure
      if !c.has isBlank then failure
      let (start, c) ← readTagUri true (c.skipWhile isBlank)
      if !c.blankAhead then failure
      pure (Token.tagDirective (String.ofList handle) start, c)
    else failure
  let c ← c.skipLineRest?
  pure (token, c)

end TaskDiagram.Yaml
