/-!
# Reading bytes as text

Bytes that are no text in UTF-8 do not stop a reader: each longest beginning of a character that
is not continued as one, and each byte that begins none, is read as the replacement character.
-/

namespace TaskDiagram.Text

/-- What a first byte asks for: the value it contributes, how many bytes follow it, and the bounds
of the first of them. -/
structure Lead where
  value : Nat
  following : Nat
  low : Nat
  high : Nat

/-- A byte as the first of a character; none where it is the first of no character. -/
def Lead.ofByte? (b : Nat) : Option Lead :=
  if b < 0x80 then some ⟨b, 0, 0x80, 0xbf⟩
  else if b < 0xc2 then none
  else if b < 0xe0 then some ⟨b - 0xc0, 1, 0x80, 0xbf⟩
  else if b < 0xf0 then
    some ⟨b - 0xe0, 2, if b == 0xe0 then 0xa0 else 0x80, if b == 0xed then 0x9f else 0xbf⟩
  else if b < 0xf5 then
    some ⟨b - 0xf0, 3, if b == 0xf0 then 0x90 else 0x80, if b == 0xf4 then 0x8f else 0xbf⟩
  else none

/-- The rest of a character of which `value` has been read and `following` bytes are missing. -/
def continueChar (value low high : Nat) : (following : Nat) → List Nat → Char × List Nat
  | 0, bytes => (Char.ofNat value, bytes)
  | _ + 1, [] => ('\ufffd', [])
  | following + 1, b :: rest =>
      if low ≤ b && b ≤ high then
        continueChar (value * 64 + (b - 0x80)) 0x80 0xbf following rest
      else ('\ufffd', b :: rest)

def ofBytesFrom : (fuel : Nat) → List Nat → List Char
  | 0, _ | _, [] => []
  | fuel + 1, b :: rest =>
      match Lead.ofByte? b with
      | none => '\ufffd' :: ofBytesFrom fuel rest
      | some lead =>
          let (c, rest) := continueChar lead.value lead.low lead.high lead.following rest
          c :: ofBytesFrom fuel rest

/-- The text of bytes. -/
def ofBytes (bytes : List Nat) : String := String.ofList (ofBytesFrom bytes.length bytes)

/-- The bytes of a text. -/
def toBytes (s : String) : List Nat := s.toUTF8.toList.map UInt8.toNat

/-- Whether bytes are those of a text: only then does reading replace none of them. -/
def isText (bytes : List Nat) : Bool := toBytes (ofBytes bytes) == bytes

end TaskDiagram.Text
