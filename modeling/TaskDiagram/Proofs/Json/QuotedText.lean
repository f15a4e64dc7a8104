import TaskDiagram.Json.Printer
import TaskDiagram.Json.Reader

/-! # Quoted text is read back

A text between quotes is read back whatever it holds and whatever stands behind it: each character
is written either as it is or as one escape, and the reader takes that for the character.
-/

namespace TaskDiagram

theorem Text.hexValue?_hexDigit {n : Nat} (h : n < 16) : hexValue? (hexDigit n) = some n := by
  revert n
  decide

namespace Json

theorem shorterThan_eq_false {n : Nat} {cs : List Char} (h : n ≤ cs.length) :
    shorterThan n cs = false := by
  induction cs generalizing n with
  | nil =>
      obtain rfl : n = 0 := Nat.le_zero.mp h
      rfl
  | cons c cs ih =>
      cases n with
      | zero => rfl
      | succ n =>
          have hpos := c.utf8Size_pos
          rw [List.length_cons] at h
          rw [shorterThan]
          exact ih (by omega)

/-- The escape of a control character is read as its code point. -/
theorem readHex_control {n : Nat} (h : n < 0x20) (rest : List Char) :
    readHex ('0' :: '0' :: Text.hexDigit (n / 16) :: Text.hexDigit (n % 16) :: rest) =
      .ok (n, rest) := by
  have hlength : 4 ≤ ('0' :: '0' :: Text.hexDigit (n / 16) :: Text.hexDigit (n % 16) :: rest).length :=
    by simp
  have hzero : Text.hexValue? '0' = some 0 := by decide
  have hhigh : Text.hexValue? (Text.hexDigit (n / 16)) = some (n / 16) :=
    Text.hexValue?_hexDigit (by omega)
  have hlow : Text.hexValue? (Text.hexDigit (n % 16)) = some (n % 16) :=
    Text.hexValue?_hexDigit (by omega)
  have hvalue : ((0 * 16 + 0) * 16 + n / 16) * 16 + n % 16 = n := by omega
  rw [readHex, shorterThan_eq_false hlength]
  simp only [hzero, hhigh, hlow, hvalue]
  rfl

/-- Characters with an escape of their own. -/
def named : List Char := ['"', '\\', '\x08', '\x0c', '\n', '\r', '\t']

theorem escapeChar_of_not_named {c : Char} (h : c ∉ named) :
    escapeChar c = if c.toNat < 0x20 then
      ['\\', 'u', '0', '0', Text.hexDigit (c.toNat / 16), Text.hexDigit (c.toNat % 16)] else [c] := by
  simp only [named, List.mem_cons, List.not_mem_nil, or_false, not_or] at h
  obtain ⟨h1, h2, h3, h4, h5, h6, h7⟩ := h
  simp [escapeChar, h1, h2, h3, h4, h5, h6, h7]

/-- A character is read from what is written for it. -/
theorem readText_escapeChar (fuel : Nat) (done : List Char) (c : Char) (rest : List Char) :
    readText (fuel + 1) done (escapeChar c ++ rest) = readText fuel (c :: done) rest := by
  by_cases hnamed : c ∈ named
  · simp only [named, List.mem_cons, List.not_mem_nil, or_false] at hnamed
    rcases hnamed with rfl | rfl | rfl | rfl | rfl | rfl | rfl <;> rfl
  · rw [escapeChar_of_not_named hnamed]
    have hquote : c ≠ '"' := fun heq => hnamed (heq ▸ List.mem_cons_self)
    have hslash : c ≠ '\\' := fun heq => hnamed (heq ▸ List.mem_cons_of_mem _ List.mem_cons_self)
    split
    next hcontrol =>
      have hunit : ¬ 0xd800 ≤ c.toNat := by omega
      have hunit' : ¬ 0xdc00 ≤ c.toNat := by omega
      have hread : readEscape ('u' :: '0' :: '0' :: Text.hexDigit (c.toNat / 16) ::
          Text.hexDigit (c.toNat % 16) :: rest) = .ok (c, rest) := by
        simp only [readEscape, readHex_control hcontrol, bind, Except.bind]
        simp [hunit, hunit', pure, Except.pure]
      simp only [List.cons_append, List.nil_append, readText, hread, bind, Except.bind]
      rfl
    next hplain =>
      simp [readText, hquote, hslash, hplain]

/-- A text is read up to its closing quote, given as much fuel as it has characters. -/
theorem readText_escaped (cs done rest : List Char) {fuel : Nat} (h : cs.length < fuel) :
    readText fuel done (cs.flatMap escapeChar ++ '"' :: rest) =
      .ok (String.ofList (done.reverse ++ cs), rest) := by
  induction cs generalizing fuel done with
  | nil =>
      cases fuel with
      | zero => exact absurd h (Nat.not_lt_zero _)
      | succ fuel => simp [readText]
  | cons c cs ih =>
      cases fuel with
      | zero => exact absurd h (Nat.not_lt_zero _)
      | succ fuel =>
          rw [List.flatMap_cons, List.append_assoc, readText_escapeChar,
            ih (c :: done) (Nat.lt_of_succ_lt_succ h)]
          simp

theorem length_le_flatMap_escapeChar (cs : List Char) :
    cs.length ≤ (cs.flatMap escapeChar).length := by
  have hpos : ∀ c : Char, 1 ≤ (escapeChar c).length := by
    intro c
    unfold escapeChar
    repeat' split
    all_goals simp
  induction cs with
  | nil => exact Nat.le_refl _
  | cons c cs ih =>
      have hc := hpos c
      rw [List.flatMap_cons, List.length_append, List.length_cons]
      omega

theorem toList_writeText (s : String) :
    (writeText s).toList = '"' :: (s.toList.flatMap escapeChar ++ ['"']) :=
  String.toList_ofList

/-- Behind its opening quote a written text is read back. -/
theorem readText_writeText (s : String) (rest : List Char) :
    readText ((s.toList.flatMap escapeChar ++ '"' :: rest).length + 1) []
      (s.toList.flatMap escapeChar ++ '"' :: rest) = .ok (s, rest) := by
  have hlength := length_le_flatMap_escapeChar s.toList
  rw [readText_escaped s.toList [] rest (by rw [List.length_append]; omega)]
  simp

end Json

end TaskDiagram
