import TaskDiagram.Json.Printer
import TaskDiagram.Json.Reader

/-! # Digits are read back

Digits are read as the number they write as long as it fits 64 bits, so a whole number of 64 bits
is read back from its text.
-/

namespace TaskDiagram.Json

/-- Text that does not go on with a number before it. -/
def EndsNumber (rest : List Char) : Prop :=
  ∀ c ∈ rest.head?, c.isDigit = false ∧ c ≠ '.' ∧ c ≠ 'e' ∧ c ≠ 'E'

theorem endsNumber_nil : EndsNumber [] := by simp [EndsNumber]

/-- Text does not go on with a number unless with a digit, a point or an exponent. -/
theorem endsNumber_cons {c : Char} {rest : List Char} :
    EndsNumber (c :: rest) ↔ c.isDigit = false ∧ c ≠ '.' ∧ c ≠ 'e' ∧ c ≠ 'E' := by
  simp [EndsNumber]

theorem EndsNumber.head {rest : List Char} (h : EndsNumber rest) :
    ∀ c ∈ rest.head?, c.isDigit = false := fun c hc => (h c hc).1

variable {rest : List Char}

/-! ## Whole numbers -/

theorem le_ofDigitChars (cs : List Char) (n : Nat) : n ≤ Nat.ofDigitChars 10 cs n := by
  rw [Nat.ofDigitChars_eq_ofDigitChars_zero]
  exact Nat.le_add_right_of_le (Nat.le_mul_of_pos_left n (Nat.pow_pos (by decide)))

/-- Where no digit comes nothing more is read. -/
theorem accumulate_ended (hrest : ∀ c ∈ rest.head?, c.isDigit = false) (n count : Nat) :
    accumulate n count rest = (n, count, rest) := by
  cases rest with
  | nil => rfl
  | cons c rest => simp [accumulate, hrest c rfl]

/-- Digits that fit 64 bits are all read, up to what ends the number. -/
theorem accumulate_digits (hrest : ∀ c ∈ rest.head?, c.isDigit = false) {cs : List Char}
    (hdigits : ∀ c ∈ cs, c.isDigit = true) {n : Nat} (count : Nat)
    (hbound : Nat.ofDigitChars 10 cs n ≤ Decimal.maxWord64) :
    accumulate n count (cs ++ rest) =
      (Nat.ofDigitChars 10 cs n, count + cs.length, rest) := by
  induction cs generalizing n count with
  | nil => exact accumulate_ended hrest n count
  | cons c cs ih =>
      obtain ⟨hc, hcs⟩ := List.forall_mem_cons.mp hdigits
      rw [Nat.ofDigitChars_cons] at hbound ⊢
      have hvalue : 10 * n + (c.toNat - '0'.toNat) = n * 10 + digitValue c := by
        rw [Nat.mul_comm]
        rfl
      rw [hvalue] at hbound ⊢
      have hstep := Nat.le_trans (le_ofDigitChars cs _) hbound
      rw [List.cons_append, accumulate, if_pos (by simp [hc, hstep]), ih hcs _ hbound,
        List.length_cons, Nat.add_right_comm, Nat.add_assoc]

/-- Only zero is written with a zero in front. -/
theorem exists_toDigits {n : Nat} (h : 0 < n) :
    ∃ d ds, Nat.toDigits 10 n = d :: ds ∧ d ≠ '0' := by
  induction n using Nat.base_induction 10 (by decide) with
  | single m hm =>
      refine ⟨m.digitChar, [], Nat.toDigits_of_lt_base hm, ?_⟩
      simpa using Nat.ne_of_gt h
  | digit m k hk hm ih =>
      obtain ⟨d, ds, hds, hd⟩ := ih hm
      refine ⟨d, ds ++ Nat.toDigits 10 k, ?_, hd⟩
      rw [← Nat.toDigits_append_toDigits (by decide) hm hk, hds, List.cons_append]

theorem isDigit_of_mem_toDigits {n : Nat} : ∀ c ∈ Nat.toDigits 10 n, c.isDigit = true :=
  fun _ hc => Nat.isDigit_of_mem_toDigits (by decide) (by decide) hc

/-- A zero is read by itself. -/
theorem readNumber_zero (negative : Bool) (hrest : EndsNumber rest) :
    readNumber negative ('0' :: rest) = .ok (wholeNumber negative 0, rest) := by
  cases rest with
  | nil => rfl
  | cons c rest =>
      obtain ⟨hdigit, hpoint, he, hE⟩ := endsNumber_cons.mp hrest
      simp [readNumber, hdigit, he, hE]

/-- The digits of a number that fits 64 bits are read as the number. -/
theorem readNumber_toDigits (negative : Bool) {n : Nat} (h : n ≤ Decimal.maxWord64)
    (hrest : EndsNumber rest) :
    readNumber negative (Nat.toDigits 10 n ++ rest) = .ok (wholeNumber negative n, rest) := by
  rcases Nat.eq_zero_or_pos n with rfl | hpos
  · rw [Nat.toDigits_zero]
    exact readNumber_zero negative hrest
  · obtain ⟨d, ds, hds, hd⟩ := exists_toDigits hpos
    have haccumulate := @accumulate_digits rest hrest.head (Nat.toDigits 10 n) isDigit_of_mem_toDigits
      0 0 (by rwa [Nat.ofDigitChars_ten_toDigits])
    rw [Nat.ofDigitChars_ten_toDigits] at haccumulate
    have hfirst : d.isDigit = true := isDigit_of_mem_toDigits d (hds ▸ List.mem_cons_self)
    rw [hds, List.cons_append] at haccumulate ⊢
    cases rest with
    | nil =>
        rw [List.append_nil] at haccumulate ⊢
        simp [readNumber, hfirst, haccumulate]
    | cons c rest =>
        obtain ⟨hdigit, hpoint, he, hE⟩ := endsNumber_cons.mp hrest
        simp [readNumber, hfirst, haccumulate, hdigit, hpoint, he, hE]

/-- A whole number of 64 bits, signed or unsigned, as documents hold it. -/
def FitsWord (n : Int) : Prop := Decimal.minInt64 ≤ n ∧ n ≤ Decimal.maxWord64

theorem fitsWord_toInt (n : Int64) : FitsWord n.toInt := by
  have hhigh := Int64.toInt_lt n
  refine ⟨Int64.le_toInt n, ?_⟩
  rw [Decimal.maxWord64]
  omega

/-- A whole number that is not negative is written as its digits. -/
theorem toList_toString_natCast (n : Nat) : (toString (n : Int)).toList = Nat.toDigits 10 n := by
  change n.repr.toList = _
  exact Nat.toList_repr

/-- A negative number is written as a sign and the digits of its magnitude. -/
theorem toList_toString_negSucc (n : Nat) :
    (toString (Int.negSucc n)).toList = '-' :: Nat.toDigits 10 (n + 1) := by
  change ("-" ++ (n + 1).repr).toList = _
  simp

end TaskDiagram.Json
