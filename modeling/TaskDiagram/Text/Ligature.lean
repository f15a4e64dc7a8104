import TaskDiagram.Text.Emoji
import TaskDiagram.Text.Width

/-!
# Columns a text takes on a terminal

A text takes the columns of its characters, but for sequences that show as one: emoji with their
selectors, colours of skin and joiners, flags, and letters of some scripts that fuse. What a
character takes depends on what stands behind it, so a text is measured from its end.
-/

namespace TaskDiagram.Text

/-- How a variation selector has the character before it shown. -/
inductive Selector where
  | plain
  | picture
  | fullWidth
  deriving DecidableEq

/-- Letters that may fuse with what stands before them. -/
inductive FusingLetter where
  /-- The second letter of an Arabic ligature. -/
  | alef
  /-- The second letter of a Hebrew ligature. -/
  | lamed
  /-- The last letter of a Buginese ligature of three. -/
  | ya
  /-- The last two of them. -/
  | vowelAndYa
  /-- A Tifinagh consonant. -/
  | tifinagh
  /-- A Tifinagh consonant behind its joiner. -/
  | joinedTifinagh
  /-- The second of two Lisu tone letters. -/
  | tone
  /-- The second letter of an Old Turkic ligature. -/
  | orkhonI
  /-- A Khmer letter that may be written below another one. -/
  | khmer
  deriving DecidableEq

/-- What a text begins with, as far as the columns of a character before it depend on that. -/
inductive Opening where
  | other
  /-- Anything that shows as a picture. -/
  | picture
  /-- A colour of skin. -/
  | skin
  /-- Regional letters, of which two make a flag. -/
  | regional (several : Bool)
  /-- A joiner before a picture; `keycap` with a key cap in front. -/
  | joinedPicture (keycap : Bool)
  /-- Regional letters before a joiner and a picture; `even` when they make whole flags. -/
  | joinedRegional (even : Bool)
  /-- The end of the name of a flag before a joiner and a picture, with the letters or digits of it
  met so far. -/
  | joinedTag (letters digits : Nat)
  /-- The second part of some Kirat Rai vowels. -/
  | vowelE
  /-- A Kirat Rai vowel that may itself be a second part. -/
  | vowelAI
  /-- A letter that fuses; `joined` with a joiner in front. -/
  | letter (l : FusingLetter) (joined : Bool)
  deriving DecidableEq

/-- A text already measured: how it begins, behind a selector if there is one. -/
structure Behind where
  opening : Opening
  selector : Option Selector

namespace Behind

def other : Behind := ⟨.other, none⟩

/-- A selector in front. It hides pictures from what stands before it, but for the selector of
pictures before a joiner. -/
def select (b : Behind) (s : Selector) : Behind :=
  match b.opening, s with
  | .letter .., _ | .joinedPicture _, .picture => { b with selector := some s }
  | _, _ => ⟨.other, some s⟩

/-- Without the selector, which turned out to select nothing. -/
def unselect (b : Behind) : Behind :=
  match b.opening with
  | .letter .. => { b with selector := none }
  | _ => if b.selector.isSome then .other else b

end Behind

def isIn (first last : Nat) (c : Char) : Bool := first ≤ c.toNat && c.toNat ≤ last

def isRegional (c : Char) : Bool := isIn 0x1f1e6 0x1f1ff c

def isSkin (c : Char) : Bool := isIn 0x1f3fb 0x1f3ff c

/-- Characters that show as a picture of their own accord and take part in sequences. -/
def isPicture (c : Char) : Bool := emojiPresentation.has c && !isRegional c && !isSkin c

/-- Pictures that a selector turns into plain text one column wide. Ideographs stay wide. -/
def isNarrowed (c : Char) : Bool :=
  emojiVariation.has c && emojiPresentation.has c && !isIn 0x1f200 0x1f2ff c

/-- Quotation marks, which have a full-width form. -/
def isQuotationMark (c : Char) : Bool :=
  c == '\u2018' || c == '\u2019' || c == '\u201c' || c == '\u201d'

def isTifinaghConsonant (c : Char) : Bool := isIn 0x2d31 0x2d65 c || c == '\u2d6f'

def isArabicAlef (c : Char) : Bool :=
  isIn 0x622 0x623 c || c == '\u0625' || c == '\u0627' || isIn 0x671 0x673 c || c == '\u0675' ||
    isIn 0x773 0x774 c || isIn 0x870 0x882 c

def isArabicLam (c : Char) : Bool :=
  c == '\u0644' || isIn 0x6b5 0x6b8 c || c == '\u076a' || c == '\u08a6' || c == '\u08c7'

/-- Khmer letters that may be written below another one. -/
def khmerLetters : Ranges := #[
  (0x1780, 0x1782), (0x1784, 0x1787), (0x1789, 0x178c), (0x178e, 0x1793), (0x1795, 0x1798),
  (0x179b, 0x179d), (0x17a0, 0x17a2), (0x17a7, 0x17a7), (0x17ab, 0x17ac), (0x17af, 0x17af)]

/-- Characters of no width that keep Arabic letters from joining. -/
def arabicBarriers : Ranges := #[
  (0x605, 0x605), (0x890, 0x891), (0x8e2, 0x8e2), (0x9be, 0x9be), (0x9d7, 0x9d7), (0xb3e, 0xb3e),
  (0xb57, 0xb57), (0xbbe, 0xbbe), (0xbd7, 0xbd7), (0xcc0, 0xcc0), (0xcc2, 0xcc2), (0xcc7, 0xcc8),
  (0xcca, 0xccb), (0xcd5, 0xcd6), (0xd3e, 0xd3e), (0xd4e, 0xd4e), (0xd57, 0xd57), (0xdcf, 0xdcf),
  (0xddf, 0xddf), (0x1160, 0x11ff), (0x1715, 0x1715), (0x1734, 0x1734), (0x180e, 0x180e),
  (0x1b35, 0x1b35), (0x1b3b, 0x1b3b), (0x1b3d, 0x1b3d), (0x1b43, 0x1b44), (0x1baa, 0x1baa),
  (0x1bf2, 0x1bf3), (0x200c, 0x200d), (0x2065, 0x2069), (0x302e, 0x302f), (0x3164, 0x3164),
  (0xa8fa, 0xa8fa), (0xa953, 0xa953), (0xa9c0, 0xa9c0), (0xd7b0, 0xd7c6), (0xd7cb, 0xd7fb),
  (0xff9e, 0xffa0), (0xfff0, 0xfff8), (0x111c0, 0x111c0), (0x111c2, 0x111c3), (0x11235, 0x11235),
  (0x1133e, 0x1133e), (0x1134d, 0x1134d), (0x11357, 0x11357), (0x113b8, 0x113b8),
  (0x113c2, 0x113c2), (0x113c5, 0x113c5), (0x113c7, 0x113c9), (0x113cf, 0x113cf),
  (0x113d1, 0x113d1), (0x114b0, 0x114b0), (0x114bd, 0x114bd), (0x115af, 0x115af),
  (0x116b6, 0x116b6), (0x11930, 0x11930), (0x1193d, 0x1193d), (0x1193f, 0x1193f),
  (0x11941, 0x11941), (0x11a84, 0x11a89), (0x11d46, 0x11d46), (0x11f02, 0x11f02),
  (0x11f41, 0x11f41), (0x16ff0, 0x16ff1), (0x1d165, 0x1d166), (0x1d16d, 0x1d172),
  (0xe0000, 0xe0000), (0xe0002, 0xe001f), (0xe0080, 0xe00ff), (0xe01f0, 0xe0fff)]

/-- Marks that may stand anywhere in a ligature. -/
def isLigatureMark (c : Char) : Bool :=
  c == '\u034f' || isIn 0x17b4 0x17b5 c || isIn 0x180b 0x180d c || c == '\u180f' ||
    isIn 0xfe00 0xfe0f c || isIn 0xe0100 0xe01ef c

/-- How a text begins whose first character joins nothing behind it. -/
def Opening.ofChar (c : Char) : Opening :=
  if isRegional c then .regional false
  else if isSkin c then .skin
  else if isPicture c then .picture
  else if isArabicAlef c then .letter .alef false
  else if c == '\u05dc' then .letter .lamed false
  else if c == '\u1a10' then .letter .ya false
  else if isTifinaghConsonant c then .letter .tifinagh false
  else if isIn 0xa4fc 0xa4fd c then .letter .tone true
  else if c.toNat == 0x10c03 then .letter .orkhonI false
  else if khmerLetters.has c then .letter .khmer true
  else if c.toNat == 0x16d67 then .vowelE
  else if c.toNat == 0x16d68 then .vowelAI
  else .other

/-- What a character adds before a letter it fuses with, and how the text begins then. -/
def fuseLetter? (c : Char) (l : FusingLetter) (joined : Bool) : Option (Int × Opening) :=
  match l with
  | .alef =>
      if isArabicLam c then some (0, .other)
      else if isZeroWidth c && !arabicBarriers.has c then some (0, .letter .alef joined)
      else none
  | l =>
      if c == '\u200d' then some (0, .letter l true)
      else if isLigatureMark c then some (0, .letter l joined)
      else
        match l with
        | .lamed => if joined && c == '\u05d0' then some (0, .other) else none
        | .ya => if joined && c == '\u1a17' then some (0, .letter .vowelAndYa true) else none
        | .vowelAndYa => if c == '\u1a15' then some (0, .other) else none
        | .tifinagh =>
            if c == '\u2d7f' then some (1, .letter .joinedTifinagh true)
            else if joined && isTifinaghConsonant c then some (0, .other)
            else none
        | .joinedTifinagh => if isTifinaghConsonant c then some (-1, .other) else none
        | .tone => if isIn 0xa4f8 0xa4fb c then some (0, .other) else none
        | .orkhonI => if joined && c.toNat == 0x10c32 then some (0, .other) else none
        | .khmer => if c == '\u17d2' then some (-1, .other) else none
        | .alef => none

/-- What a character adds before a joiner and a picture. -/
def fusePicture? (c : Char) : Option (Int × Opening) :=
  if c == '\u20e3' then some (0, .joinedPicture true)
  else if isRegional c then some (1, .joinedRegional false)
  else if isSkin c then some (0, .skin)
  else if c.toNat == 0xe007f then some (0, .joinedTag 0 0)
  else if isPicture c then some (0, .picture)
  else none

/-- What a character adds before the name of a flag: a letter or a digit of it, or the flag. -/
def fuseTag? (c : Char) (letters digits : Nat) : Option (Int × Opening) :=
  if isIn 0xe0061 0xe007a c && digits == 0 && letters < 6 then
    some (0, .joinedTag (letters + 1) 0)
  else if isIn 0xe0030 0xe0039 c && (if digits == 0 then letters ≤ 4 else digits < 3) then
    some (0, .joinedTag 0 (digits + 1))
  else if c.toNat == 0x1f3f4 && ((digits == 0 && 3 ≤ letters) || digits == 3) then
    some (0, .picture)
  else none

/-- What a character adds before a text it joins, and how the text begins then. -/
def fuse? (c : Char) (o : Opening) : Option (Int × Opening) :=
  let joinsPicture := if c == '\u200d' then some (0, .joinedPicture false) else none
  match o with
  | .other => none
  | .picture => joinsPicture
  | .skin => if emojiModifierBase.has c then some (0, .picture) else joinsPicture
  | .regional several =>
      if isRegional c then some (1, .regional true)
      else if several then joinsPicture
      else none
  | .joinedPicture false => fusePicture? c
  | .joinedPicture true => none
  | .joinedRegional false => if isRegional c then some (-1, .joinedRegional true) else none
  | .joinedRegional true =>
      if isRegional c then some (3, .joinedRegional false) else joinsPicture
  | .joinedTag letters digits => fuseTag? c letters digits
  | .vowelE =>
      if c.toNat == 0x16d63 || c.toNat == 0x16d69 then some (0, .other)
      else if c.toNat == 0x16d67 then some (0, .vowelAI)
      else if c.toNat == 0x16d68 then some (1, .vowelE)
      else none
  | .vowelAI => if c.toNat == 0x16d63 then some (0, .other) else none
  | .letter l joined => fuseLetter? c l joined

/-- A character in front of a text without a selector: the columns it adds, and the text then. -/
def Opening.prepend (c : Char) (o : Opening) : Int × Behind :=
  match fuse? c o with
  | some (columns, opening) => (columns, ⟨opening, none⟩)
  | none => (charWidth c, ⟨.ofChar c, none⟩)

/-- A character in front of a text: the columns it adds, and the text then. -/
def Behind.prepend (c : Char) (b : Behind) : Int × Behind :=
  if b.selector == some .picture && emojiVariation.has c then
    let joined := match b.opening with
      | .joinedPicture _ => true
      | _ => false
    (if joined then 0 else 2, ⟨.picture, none⟩)
  else if c.toNat ≤ 0xa0 then (1, .other)
  else if c == '\ufe0f' then (0, b.unselect.select .picture)
  else if c == '\ufe0e' then (0, b.unselect.select .plain)
  else if c == '\ufe01' then (0, b.unselect.select .fullWidth)
  else if b.selector == some .plain && isNarrowed c then (1, .other)
  else if b.selector == some .fullWidth && isQuotationMark c then (2, .other)
  else b.unselect.opening.prepend c

/-- Columns a line of text takes. -/
def width (line : String) : Nat :=
  let (columns, _) := line.toList.foldr
    (fun c (columns, b) =>
      let (more, b) := b.prepend c
      (columns + more, b)) ((0 : Int), Behind.other)
  columns.toNat

end TaskDiagram.Text
