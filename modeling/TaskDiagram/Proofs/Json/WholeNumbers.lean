import TaskDiagram.Block.Field
import TaskDiagram.Proofs.Decimal.Saturation
import TaskDiagram.Proofs.Json.Printed
import TaskDiagram.Proofs.Json.Results

/-! # Whole numbers of any size

A whole number that a document writes is read as that number within 64 bits, signed or unsigned.
Beyond them the digits that fit are scaled by a power of ten, and the double that results is beyond
64 bits as well. So what is read is taken for the nearest number of 64 bits with a sign.
-/

namespace TaskDiagram

namespace Json

variable {rest rest' : List Char}

/-- How a document writes a whole number: digits without leading zeros, with a minus in front of a
negative number. Zero may have one as well. -/
def IsNumeral (n : Int) (s : String) : Prop :=
  (0 ≤ n ∧ s = toString n.natAbs) ∨ (n ≤ 0 ∧ s = "-" ++ toString n.natAbs)

/-- A magnitude with a sign. -/
def withSign (negative : Bool) (n : Nat) : Int := if negative then -(n : Int) else n

/-- The digits of a numeral are read behind its sign. -/
theorem readNumber_of_isNumeral {n : Int} {s : String} {j : Json} (hs : IsNumeral n s)
    (h : read s = .ok j) : ∃ negative rest,
      readNumber negative (Nat.toDigits 10 n.natAbs) = .ok (j, rest) ∧
        n = withSign negative n.natAbs := by
  obtain ⟨⟨value, rest⟩, hfront, h⟩ := Except.of_bind_eq_ok h
  obtain rfl : value = j := by
    dsimp only at h
    split at h
    · exact Except.ok.inj h
    · cases h
  unfold readFront at hfront
  rcases hs with ⟨hn, rfl⟩ | ⟨hn, rfl⟩
  · have htext : (toString n.natAbs).toList = Nat.toDigits 10 n.natAbs := Nat.toList_repr
    obtain ⟨d, ds, hds⟩ := List.exists_cons_of_ne_nil
      (Nat.toDigits_ne_nil (n := n.natAbs) (b := 10))
    have hdigit : d.isDigit = true := isDigit_of_mem_toDigits d (hds ▸ List.mem_cons_self)
    refine ⟨false, rest, ?_, (Int.natAbs_of_nonneg hn).symm⟩
    rw [htext, hds, readValue_digit hdigit] at hfront
    rwa [hds]
  · have htext : ("-" ++ toString n.natAbs).toList = '-' :: Nat.toDigits 10 n.natAbs := by
      change ("-" ++ n.natAbs.repr).toList = _
      simp
    refine ⟨true, rest, ?_, ?_⟩
    · rwa [htext, readValue_minus] at hfront
    · rw [withSign, if_pos rfl, Int.ofNat_natAbs_of_nonpos hn, Int.neg_neg]

theorem digitValue_le {c : Char} (h : c.isDigit = true) : digitValue c ≤ 9 := by
  have hhigh : c.toNat ≤ 57 := by
    simp only [Char.isDigit, Bool.and_eq_true, decide_eq_true_eq] at h
    exact UInt32.le_iff_toNat_le.mp h.2
  rw [digitValue]
  omega

/-- Digits are read up to the first that no longer fits 64 bits. -/
theorem accumulate_beyond {cs : List Char} (hdigits : ∀ c ∈ cs, c.isDigit = true) {n : Nat}
    (count : Nat) (hn : n ≤ Decimal.maxWord64) (h : Decimal.maxWord64 < Nat.ofDigitChars 10 cs n) :
    ∃ m count' skipped, accumulate n count cs = (m, count', skipped) ∧ skipped ≠ [] ∧
      (∀ c ∈ skipped, c.isDigit = true) ∧ m ≤ Decimal.maxWord64 ∧
      Decimal.maxWord64 < m * 10 + 10 := by
  induction cs generalizing n count with
  | nil => exact absurd h (Nat.not_lt.mpr hn)
  | cons c cs ih =>
      obtain ⟨hc, hcs⟩ := List.forall_mem_cons.mp hdigits
      by_cases hfits : n * 10 + digitValue c ≤ Decimal.maxWord64
      · rw [Nat.ofDigitChars_cons, Nat.mul_comm] at h
        rw [accumulate, if_pos (by simp [hc, hfits])]
        exact ih hcs _ hfits h
      · refine ⟨n, count, c :: cs, ?_, List.cons_ne_nil _ _, hdigits, hn, ?_⟩
        · rw [accumulate, if_neg (by simp [hfits])]
        · have hvalue := digitValue_le hc
          omega

/-- Digits that are passed over raise a number of many bits, unless it leaves the range. -/
theorem finishFloat_beyond {negative : Bool} {m skipped : Nat} (hskipped : 0 < skipped)
    (hm : m ≤ Decimal.maxWord64) (hlarge : Decimal.maxWord64 < m * 10 + 10) {j : Json}
    (h : finishFloat negative m skipped rest = .ok (j, rest')) :
    ∃ x, j = signed negative x ∧ Decimal.Reaches x 63 := by
  rw [Decimal.maxWord64] at hlarge
  -- The digits that were read make up 60 bits, and a power of ten adds three at least.
  have hmany : 60 ≤ m.log2 := (Nat.le_log2 (by omega)).mpr (by omega)
  have hfloat := (Decimal.reaches_ofNat (by omega) hm).mono (a := 60) (by exact_mod_cast hmany)
  have hzero : (m == 0) = false := beq_eq_false_iff_ne.mpr (by omega)
  have hnonneg : (0 : Int) ≤ skipped := Int.natCast_nonneg _
  unfold finishFloat scale? at h
  rw [if_pos hnonneg, hzero] at h
  by_cases hrange : (skipped : Int) ≤ 308
  · have hpower := Decimal.reaches_powerOfTen hskipped (by omega)
    rw [if_pos hrange, Int.toNat_natCast] at h
    cases hinf : (Float.ofNat m * powerOfTen skipped).isInf with
    | true => simp [hinf] at h
    | false =>
        refine ⟨Float.ofNat m * powerOfTen skipped, ?_, ?_⟩
        · simp only [hinf] at h
          cases h
          rfl
        · rcases hfloat.mul hpower with hbeyond | hreaches
          · rw [hinf] at hbeyond
            cases hbeyond
          · exact hreaches
  · rw [if_neg hrange] at h
    cases h

/-- Digits beyond 64 bits are read as a double beyond them, if they are read at all. -/
theorem readNumber_beyond {negative : Bool} {n : Nat} (hn : Decimal.maxWord64 < n) {j : Json}
    (h : readNumber negative (Nat.toDigits 10 n) = .ok (j, rest)) :
    ∃ x, j = signed negative x ∧ Decimal.Reaches x 63 := by
  have hdigits : ∀ c ∈ Nat.toDigits 10 n, c.isDigit = true := isDigit_of_mem_toDigits
  obtain ⟨m, count, skipped, hread, hne, hskipped, hfits, hlarge⟩ :=
    accumulate_beyond hdigits 0 (Nat.zero_le _) (by rwa [Nat.ofDigitChars_ten_toDigits])
  obtain ⟨d, ds, hds, hd⟩ := exists_toDigits (Nat.zero_lt_of_lt hn)
  have hfirst : d.isDigit = true := hdigits d (hds ▸ List.mem_cons_self)
  obtain ⟨htake, hdrop⟩ := @takeWhile_digits [] skipped hskipped (by simp)
  rw [List.append_nil] at htake hdrop
  rw [hds] at h hread
  simp only [readNumber, hfirst, hread, htake, hdrop, Bool.not_true, Bool.false_eq_true, if_false,
    List.isEmpty_iff, hne] at h
  exact finishFloat_beyond (List.length_pos_iff.mpr hne) hfits hlarge h

end Json

namespace FieldValue

open Decimal

theorem asInt_of_reaches {x : Float} (h : Reaches x 63) {n : Nat} (hn : maxInt64 < n)
    (negative : Bool) : asInt (.float (if negative then -x else x)) =
      some (saturate (Json.withSign negative n)) := by
  cases negative with
  | false => exact (h.saturates hn).1
  | true => exact (h.saturates hn).2

theorem decode_of_fits {n : Int} (h : fitsInt64 n = true) :
    ∃ v, decode (.int n) = .ok v ∧ v.asInt = some (saturate n) := by
  refine ⟨.int (.ofInt n), ?_, congrArg some (saturate_of_fits h).symm⟩
  rw [decode, if_pos h]

/-- Whole numbers of 64 bits, signed or unsigned. -/
theorem decode_wholeNumber (negative : Bool) {n : Nat} (hn : n ≤ maxWord64) :
    ∃ v, decode (Json.wholeNumber negative n) = .ok v ∧
      v.asInt = some (saturate (Json.withSign negative n)) := by
  -- What is too large for 64 bits with a sign is read as a double that is as large.
  have hreaches : maxInt64 < n → Reaches (Float.ofNat n) 63 := by
    intro hlarge
    rw [maxInt64] at hlarge
    have hmany : 63 ≤ n.log2 := (Nat.le_log2 (by omega)).mpr (by omega)
    exact (reaches_ofNat (by omega) hn).mono (by exact_mod_cast hmany)
  cases negative with
  | false =>
      by_cases hfits : fitsInt64 n = true
      · exact decode_of_fits hfits
      · have hlarge : maxInt64 < n := by
          have hlow : minInt64 ≤ n := by
            rw [minInt64]
            omega
          exact Int.not_le.mp fun hhigh => hfits (fitsInt64_iff.mpr ⟨hlow, hhigh⟩)
        exact ⟨.float (Float.ofNat n), if_neg hfits,
          asInt_of_reaches (hreaches hlarge) hlarge false⟩
  | true =>
      by_cases hzero : n = 0
      · -- A minus in front of zero makes it a double.
        subst hzero
        exact ⟨.float (-(Float.ofNat 0)), rfl, by decide +kernel⟩
      · have hne : (n == 0) = false := beq_eq_false_iff_ne.mpr hzero
        by_cases hlarge : maxInt64 + 1 < (n : Int)
        · have hwhole : Json.wholeNumber true n = .float (-(Float.ofNat n)) := by
            simp [Json.wholeNumber, Json.signed, hlarge]
          rw [hwhole]
          exact ⟨_, rfl, asInt_of_reaches (hreaches (by omega)) (by omega) true⟩
        · have hwhole : Json.wholeNumber true n = .int (-(n : Int)) := by
            simp [Json.wholeNumber, hne, hlarge]
          rw [hwhole]
          have hbounds : minInt64 ≤ -(n : Int) ∧ -(n : Int) ≤ maxInt64 := by
            rw [maxInt64] at hlarge ⊢
            rw [minInt64]
            omega
          exact decode_of_fits (fitsInt64_iff.mpr hbounds)

/-- A whole number of a document is taken for the nearest one of 64 bits. -/
theorem asInt_of_read {n : Int} {s : String} {j : Json} (hs : Json.IsNumeral n s)
    (h : Json.read s = .ok j) :
    ∃ v, decode j = .ok v ∧ v.asInt = some (saturate n) := by
  obtain ⟨negative, rest, hread, hn⟩ := Json.readNumber_of_isNumeral hs h
  rw [hn]
  rcases Nat.lt_or_ge maxWord64 n.natAbs with hlarge | hfits
  · obtain ⟨x, rfl, hx⟩ := Json.readNumber_beyond hlarge hread
    have hbeyond : maxInt64 < n.natAbs := by
      rw [maxWord64] at hlarge
      rw [maxInt64]
      omega
    exact ⟨_, rfl, asInt_of_reaches hx hbeyond negative⟩
  · have hwhole := Json.readNumber_toDigits negative hfits Json.endsNumber_nil
    rw [List.append_nil, hread] at hwhole
    cases hwhole
    exact decode_wholeNumber negative hfits

end FieldValue

end TaskDiagram
