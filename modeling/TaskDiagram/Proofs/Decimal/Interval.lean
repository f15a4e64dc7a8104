import Mathlib.Algebra.Order.Field.Power
import Mathlib.Tactic.Linarith
import Mathlib.Tactic.NormNum
import Mathlib.Tactic.Positivity
import Mathlib.Tactic.Ring
import TaskDiagram.Decimal.Shortest
import TaskDiagram.Decimal.Word

/-! # Where the shortest decimal lies

The shortest decimal of a double lies in the interval of reals that round to the double, and its
digits fit 64 bits.
-/

namespace TaskDiagram.Decimal

/-- The number a numeral stands for. -/
def Numeral.value (n : Numeral) : ℚ := n.digits * 10 ^ n.exponent

/-- The number a magnitude stands for. -/
def Binary.value (b : Binary) : ℚ := b.significand * 2 ^ b.exponent

namespace Rounding

variable {r : Rounding} {k : Int} {d : Nat}

/-- The ends of an interval enclose its value, and its unit is positive. -/
structure Proper (r : Rounding) : Prop where
  low_pos : 0 < r.low
  low_lt : r.low < r.value
  lt_high : r.value < r.high
  wide : r.low + 3 ≤ r.high
  scale : 0 < r.scale
  denominator : 0 < r.denominator

/-- The size of a unit. -/
def unit (r : Rounding) : ℚ := r.scale / r.denominator

theorem Proper.unit_pos (h : r.Proper) : 0 < r.unit :=
  div_pos (Nat.cast_pos.mpr h.scale) (Nat.cast_pos.mpr h.denominator)

/-- A finer or coarser grid leaves an interval with its ends in order. -/
theorem Proper.inSteps (h : r.Proper) (k : Int) : (r.inSteps k).Proper := by
  unfold Rounding.inSteps
  split
  · exact { h with denominator := Nat.mul_pos h.denominator (Nat.pow_pos (by decide)) }
  · exact { h with scale := Nat.mul_pos h.scale (Nat.pow_pos (by decide)) }

@[simp]
theorem low_inSteps (r : Rounding) (k : Int) : (r.inSteps k).low = r.low := by
  unfold inSteps
  split <;> rfl

@[simp]
theorem value_inSteps (r : Rounding) (k : Int) : (r.inSteps k).value = r.value := by
  unfold inSteps
  split <;> rfl

@[simp]
theorem high_inSteps (r : Rounding) (k : Int) : (r.inSteps k).high = r.high := by
  unfold inSteps
  split <;> rfl

/-- On a grid with steps of a power of ten, a unit is as many steps smaller. -/
theorem unit_inSteps (r : Rounding) (k : Int) : (r.inSteps k).unit = r.unit / 10 ^ k := by
  unfold inSteps unit
  split
  next h =>
    obtain ⟨n, rfl⟩ := Int.eq_ofNat_of_zero_le h
    simp [div_div]
  next h =>
    obtain ⟨n, hn⟩ := Int.eq_ofNat_of_zero_le (Int.neg_nonneg_of_nonpos (Int.le_of_lt (Int.not_le.mp h)))
    obtain rfl : k = -(n : Int) := by omega
    simp [mul_div_right_comm]

theorem Proper.mul_unit_le_iff (h : r.Proper) (n d : Nat) :
    n * r.unit ≤ d ↔ n * r.scale ≤ d * r.denominator := by
  have hpos : (0 : ℚ) < r.denominator := Nat.cast_pos.mpr h.denominator
  rw [unit, ← mul_div_assoc, div_le_iff₀ hpos]
  exact_mod_cast Iff.rfl

theorem Proper.le_mul_unit_iff (h : r.Proper) (n d : Nat) :
    (d : ℚ) ≤ n * r.unit ↔ d * r.denominator ≤ n * r.scale := by
  have hpos : (0 : ℚ) < r.denominator := Nat.cast_pos.mpr h.denominator
  rw [unit, ← mul_div_assoc, le_div_iff₀ hpos]
  exact_mod_cast Iff.rfl

/-- A whole number the interval holds lies between its ends. -/
theorem of_holds (h : r.Proper) (hd : r.holds d = true) :
    r.low * r.unit ≤ d ∧ (d : ℚ) ≤ r.high * r.unit := by
  rw [h.mul_unit_le_iff, h.le_mul_unit_iff]
  unfold holds at hd
  split at hd
  · simpa using hd
  · have hlt : r.low * r.scale < d * r.denominator ∧ d * r.denominator < r.high * r.scale := by
      simpa using hd
    exact ⟨Nat.le_of_lt hlt.1, Nat.le_of_lt hlt.2⟩

/-- A whole number between the ends is held. -/
theorem of_not_holds (h : r.Proper) (hd : r.holds d = false) :
    (d : ℚ) ≤ r.low * r.unit ∨ r.high * r.unit ≤ d := by
  rw [h.mul_unit_le_iff, h.le_mul_unit_iff]
  unfold holds at hd
  split at hd
  · have hor : r.low * r.scale ≤ d * r.denominator → r.high * r.scale < d * r.denominator := by
      simpa using hd
    rcases Nat.lt_or_ge (d * r.denominator) (r.low * r.scale) with hlt | hge
    · exact .inl (Nat.le_of_lt hlt)
    · exact .inr (Nat.le_of_lt (hor hge))
  · have hor : r.low * r.scale < d * r.denominator → r.high * r.scale ≤ d * r.denominator := by
      simpa using hd
    rcases Nat.lt_or_ge (r.low * r.scale) (d * r.denominator) with hlt | hge
    · exact .inr (hor hlt)
    · exact .inl hge

/-- What is found on a grid is held. -/
theorem holds_of_nearest? {tie : Tie} (hd : r.nearest? tie = some d) : r.holds d = true := by
  unfold nearest? at hd
  dsimp only at hd
  split at hd
  next => cases hd
  next hbelow _ =>
    cases hd
    exact hbelow
  next _ habove =>
    cases hd
    exact habove
  -- With both neighbours in the interval it does not matter which one is nearer.
  next hbelow habove =>
    have hor : d = r.value * r.scale / r.denominator ∨ d = r.value * r.scale / r.denominator + 1 := by
      split at hd
      · exact .inl (Option.some.inj hd).symm
      · split at hd
        · exact .inr (Option.some.inj hd).symm
        · cases tie with
          | up => exact .inr (Option.some.inj hd).symm
          | toEven =>
              dsimp only at hd
              split at hd
              · exact .inl (Option.some.inj hd).symm
              · exact .inr (Option.some.inj hd).symm
    rcases hor with rfl | rfl
    · exact hbelow
    · exact habove

/-- Where nothing is found, the interval is no wider than a step. -/
theorem width_of_nearest? (h : r.Proper) {tie : Tie} (hnone : r.nearest? tie = none) :
    3 * r.unit ≤ 1 := by
  -- Neither neighbour of the value is held, so both ends lie between these.
  have hboth : r.holds (r.value * r.scale / r.denominator) = false ∧
      r.holds (r.value * r.scale / r.denominator + 1) = false := by
    unfold nearest? at hnone
    dsimp only at hnone
    split at hnone
    next hbelow habove => exact ⟨hbelow, habove⟩
    next => cases hnone
    next => cases hnone
    next =>
      split at hnone
      · cases hnone
      · split at hnone
        · cases hnone
        · cases tie <;> cases hnone
  have hbelow : (↑(r.value * r.scale / r.denominator) : ℚ) ≤ r.value * r.unit := by
    rw [h.le_mul_unit_iff]
    exact Nat.div_mul_le_self _ _
  have habove : r.value * r.unit < (↑(r.value * r.scale / r.denominator) : ℚ) + 1 := by
    rw [← not_le]
    intro hle
    have hle : (↑(r.value * r.scale / r.denominator + 1) : ℚ) ≤ r.value * r.unit := by
      exact_mod_cast hle
    rw [h.le_mul_unit_iff] at hle
    exact Nat.not_le_of_lt (Nat.lt_mul_div_succ _ h.denominator)
      (by rwa [Nat.mul_comm r.denominator])
  have hunit := h.unit_pos
  have hlow : (r.low : ℚ) * r.unit < r.value * r.unit :=
    mul_lt_mul_of_pos_right (Nat.cast_lt.mpr h.low_lt) hunit
  have hhigh : (r.value : ℚ) * r.unit < r.high * r.unit :=
    mul_lt_mul_of_pos_right (Nat.cast_lt.mpr h.lt_high) hunit
  have hwide : ((r.low : ℚ) + 3) * r.unit ≤ r.high * r.unit :=
    mul_le_mul_of_nonneg_right (by exact_mod_cast h.wide) hunit.le
  have h1 := (of_not_holds h hboth.1).resolve_right (not_le.mpr (lt_of_le_of_lt hbelow hhigh))
  have h2 := (of_not_holds h hboth.2).resolve_left
    (not_le.mpr (lt_trans hlow (by exact_mod_cast habove)))
  push_cast at h2
  linarith

/-- A grid is left out on the way down as long as the value lies below its first point. -/
theorem leading_step (h : r.Proper) (fuel : Nat) (k : Int) :
    r.leading (fuel + 1) k =
      if (10 : ℚ) ^ k ≤ r.value * r.unit then k else r.leading fuel (k - 1) := by
  have hone := (h.inSteps k).le_mul_unit_iff (r.inSteps k).value 1
  have hten : (0 : ℚ) < 10 ^ k := by positivity
  rw [unit_inSteps, value_inSteps, Nat.cast_one, Nat.one_mul, ← mul_div_assoc,
    le_div_iff₀ hten, one_mul] at hone
  rw [leading]
  simp only [value_inSteps, hone]

/-- The search for the leading digit stops at a grid whose first point the value has reached, and
did not reach on the grid before. -/
theorem leading_spec (h : r.Proper) {low : Int} (hlow : (10 : ℚ) ^ low ≤ r.value * r.unit)
    (fuel : Nat) (start : Int) (hle : low ≤ start) (hfuel : start - low < fuel) :
    (10 : ℚ) ^ r.leading fuel start ≤ r.value * r.unit ∧
      (r.leading fuel start = start ∨
        r.value * r.unit < (10 : ℚ) ^ (r.leading fuel start + 1)) := by
  induction fuel generalizing start with
  | zero => omega
  | succ fuel ih =>
      rw [leading_step h]
      split
      next hfits => exact ⟨hfits, .inl rfl⟩
      next hbelow =>
        have hne : low ≠ start := by
          rintro rfl
          exact hbelow hlow
        obtain ⟨hfits, htop⟩ := ih (start - 1) (by omega) (by push_cast at hfuel; omega)
        refine ⟨hfits, .inr ?_⟩
        rcases htop with heq | hlt
        · rw [heq, Int.sub_add_cancel]
          exact not_le.mp hbelow
        · exact hlt

/-- A grid on which nothing is found has steps no shorter than the interval. -/
theorem le_step_of_nearest? (h : r.Proper) {tie : Tie} {k : Int}
    (hnone : (r.inSteps k).nearest? tie = none) : 3 * r.unit ≤ (10 : ℚ) ^ k := by
  have hwidth := width_of_nearest? (h.inSteps k) hnone
  have hten : (0 : ℚ) < 10 ^ k := by positivity
  rwa [unit_inSteps, ← mul_div_assoc, div_le_one hten] at hwidth

/-- The first hit is held on its grid; if it is not on the first grid, the one before is too wide. -/
theorem firstHit_spec (h : r.Proper) (tie : Tie) (fuel : Nat) (k : Int)
    (hwide : (10 : ℚ) ^ (k - fuel) < 3 * r.unit) :
    (r.inSteps (r.firstHit tie (fuel + 1) k).exponent).holds
        (r.firstHit tie (fuel + 1) k).digits = true ∧
      ((r.firstHit tie (fuel + 1) k).exponent = k ∨
        3 * r.unit ≤ (10 : ℚ) ^ ((r.firstHit tie (fuel + 1) k).exponent + 1)) := by
  induction fuel generalizing k with
  | zero =>
      rw [firstHit]
      split
      next d hd => exact ⟨holds_of_nearest? hd, .inl rfl⟩
      -- The last grid is finer than the interval is wide.
      next hnone =>
        rw [Int.natCast_zero, Int.sub_zero] at hwide
        exact absurd hwide (not_lt.mpr (le_step_of_nearest? h hnone))
  | succ fuel ih =>
      rw [firstHit]
      split
      next d hd => exact ⟨holds_of_nearest? hd, .inl rfl⟩
      next hnone =>
        have hstep := le_step_of_nearest? h hnone
        have hexponent : k - 1 - (fuel : Int) = k - ((fuel + 1 : Nat) : Int) := by
          push_cast
          ring
        obtain ⟨hholds, htop⟩ := ih (k - 1) (hexponent ▸ hwide)
        refine ⟨hholds, .inr ?_⟩
        rcases htop with heq | hle
        · rwa [heq, Int.sub_add_cancel]
        · exact hle

end Rounding

/-- Zeros at the end of the digits do not matter. -/
theorem Numeral.value_trimmed (fuel : Nat) (n : Numeral) : (n.trimmed fuel).value = n.value := by
  induction fuel generalizing n with
  | zero => rfl
  | succ fuel ih =>
      rw [trimmed]
      split
      next h =>
        obtain ⟨hmod, -⟩ : n.digits % 10 = 0 ∧ n.digits ≠ 0 := by simpa using h
        have hdigits : (n.digits : ℚ) = (n.digits / 10 : Nat) * 10 := by
          exact_mod_cast (Nat.div_mul_cancel (Nat.dvd_of_mod_eq_zero hmod)).symm
        rw [ih, value, value, hdigits, zpow_add_one₀ (by norm_num)]
        ring
      next => rfl

theorem Numeral.digits_trimmed_le (fuel : Nat) (n : Numeral) :
    (n.trimmed fuel).digits ≤ n.digits := by
  induction fuel generalizing n with
  | zero => exact Nat.le_refl _
  | succ fuel ih =>
      rw [trimmed]
      split
      next => exact Nat.le_trans (ih _) (Nat.div_le_self _ _)
      next => exact Nat.le_refl _

/-! ## The shortest decimal -/

/-- The magnitude of a finite double that is not zero. -/
structure Binary.Finite (b : Binary) : Prop where
  pos : 0 < b.significand
  lt : b.significand < 2 ^ 53
  low : -1074 ≤ b.exponent
  high : b.exponent ≤ 971

namespace Binary.Finite

variable {b : Binary}

/-- The interval of a double that is not zero has its ends in order. -/
theorem proper (h : b.Finite) : (Rounding.ofBinary b).Proper := by
  have hpos := h.pos
  have hpow : ∀ n, 0 < Nat.pow 2 n := fun n => Nat.pow_pos (by decide)
  constructor
  all_goals unfold Rounding.ofBinary; dsimp only
  · split <;> omega
  · split <;> omega
  · omega
  · split <;> omega
  · split
    · exact hpow _
    · exact Nat.one_pos
  · split
    · exact Nat.one_pos
    · exact hpow _

/-- The unit of the interval is a quarter of the last bit. -/
theorem unit_ofBinary (b : Binary) : (Rounding.ofBinary b).unit = 2 ^ (b.exponent - 2) := by
  unfold Rounding.ofBinary Rounding.unit
  dsimp only
  split
  next h =>
    obtain ⟨n, hn⟩ := Int.eq_ofNat_of_zero_le h
    rw [hn]
    simp
  next h =>
    obtain ⟨n, hn⟩ := Int.eq_ofNat_of_zero_le
      (Int.neg_nonneg_of_nonpos (Int.le_of_lt (Int.not_le.mp h)))
    obtain hneg : b.exponent - 2 = -(n : Int) := by omega
    rw [hneg]
    simp

/-- The value in units is the magnitude of the double. -/
theorem value_unit (b : Binary) :
    ((Rounding.ofBinary b).value : ℚ) * (Rounding.ofBinary b).unit = b.value := by
  have hvalue : (Rounding.ofBinary b).value = 4 * b.significand := rfl
  rw [unit_ofBinary, hvalue, Binary.value, zpow_sub₀ (by norm_num)]
  push_cast
  ring

/-- A finite double is below `2 ^ 1024`. -/
theorem value_lt (h : b.Finite) : b.value < 2 ^ 1024 := by
  have hsignificand : (b.significand : ℚ) < 2 ^ 53 := by exact_mod_cast h.lt
  have hpower : (2 : ℚ) ^ b.exponent ≤ 2 ^ 971 :=
    (zpow_le_zpow_right₀ (by norm_num) h.high).trans_eq (zpow_natCast 2 971)
  calc b.value ≤ b.significand * 2 ^ 971 :=
        mul_le_mul_of_nonneg_left hpower (Nat.cast_nonneg _)
    _ < 2 ^ 53 * 2 ^ 971 := mul_lt_mul_of_pos_right hsignificand (by positivity)
    _ = 2 ^ 1024 := (pow_add 2 53 971).symm

theorem le_value (h : b.Finite) : (2 : ℚ) ^ (-1074 : Int) ≤ b.value := by
  have hone : (1 : ℚ) ≤ b.significand := by exact_mod_cast h.pos
  calc (2 : ℚ) ^ (-1074 : Int) ≤ 2 ^ b.exponent := zpow_le_zpow_right₀ (by norm_num) h.low
    _ = 1 * 2 ^ b.exponent := (one_mul _).symm
    _ ≤ b.value := mul_le_mul_of_nonneg_right hone (by positivity)

end Binary.Finite

section Doubles

variable {x : Float}

open Float.Model

theorem isNaN_of_isFinite (h : x.isFinite = true) : x.isNaN = false := by
  change x.toModel.unpack.isFinite = true at h
  change x.toModel.unpack.isNaN = false
  generalize x.toModel.unpack = unpacked at h ⊢
  cases unpacked with
  | notANumber => cases h
  | _ => rfl

theorem isInf_of_isFinite (h : x.isFinite = true) : x.isInf = false := by
  change x.toModel.unpack.isFinite = true at h
  change x.toModel.unpack.isInf = false
  generalize x.toModel.unpack = unpacked at h ⊢
  cases unpacked with
  | infinity => cases h
  | _ => rfl

theorem isNaN_or_isInf (h : x.isFinite = false) : x.isNaN = true ∨ x.isInf = true := by
  change x.toModel.unpack.isFinite = false at h
  change x.toModel.unpack.isNaN = true ∨ x.toModel.unpack.isInf = true
  generalize x.toModel.unpack = unpacked at h ⊢
  cases unpacked with
  | notANumber => exact .inl rfl
  | infinity => exact .inr rfl
  | zero => cases h
  | finite => cases h

theorem toNat_unpackExponent (x : Float) :
    (@UnpackedFloat.unpackExponent .binary64 x.toModel.toBits.toBitVec).toNat =
      exponentField x := by
  unfold UnpackedFloat.unpackExponent exponentField
  rw [BitVec.toNat_cast, BitVec.extractLsb_toNat, Nat.shiftRight_eq_div_pow]
  rfl

/-- The exponent of a finite double is not the one of infinity. -/
theorem exponentField_lt (h : x.isFinite = true) : exponentField x < 2047 := by
  change x.toModel.unpack.isFinite = true at h
  have hfield := toNat_unpackExponent x
  have hlt := (@UnpackedFloat.unpackExponent .binary64 x.toModel.toBits.toBitVec).isLt
  rw [hfield] at hlt
  change exponentField x < 2048 at hlt
  refine Nat.lt_of_le_of_ne (Nat.le_of_lt_succ hlt) fun heq => ?_
  have hones : @UnpackedFloat.unpackExponent .binary64 x.toModel.toBits.toBitVec = -1#11 := by
    apply BitVec.eq_of_toNat_eq
    rw [hfield, heq]
    rfl
  unfold Float.Model.unpack UnpackedFloat.unpack at h
  dsimp only at h
  rw [if_pos hones] at h
  split at h <;> cases h

/-- A finite double that is not zero has such a magnitude. -/
theorem Binary.finite_ofFloat (h : x.isFinite = true) (hne : (ofFloat x).significand ≠ 0) :
    (ofFloat x).Finite := by
  have hfield := exponentField_lt h
  have hfraction : x.toBits.toNat % hiddenBit < hiddenBit := Nat.mod_lt _ (by decide)
  have htwice : hiddenBit + hiddenBit = 2 ^ 53 := by decide
  unfold ofFloat at hne ⊢
  dsimp only at hne ⊢
  generalize x.toBits.toNat % hiddenBit = fraction at *
  split at hne
  next hzero =>
    rw [if_pos hzero]
    constructor
    all_goals dsimp only at hne ⊢; omega
  next hzero =>
    rw [if_neg hzero]
    have hpos : 0 < exponentField x := Nat.pos_of_ne_zero (by simpa using hzero)
    constructor
    all_goals dsimp only at hne ⊢; omega

end Doubles

/-- The digits of a numeral fit 64 bits, and it lies where numbers are rounded to a magnitude. -/
structure Numeral.Approximates (n : Numeral) (b : Binary) : Prop where
  digits_le : n.digits ≤ maxWord64
  low : (2 : ℚ) ^ (-1074 : Int) / 2 ≤ n.value
  high : n.value ≤ (4 * b.significand + 2) * 2 ^ (b.exponent - 2)

theorem Numeral.Approximates.digits_pos {n : Numeral} {b : Binary} (h : n.Approximates b) :
    0 < n.digits := by
  have hpos : (0 : ℚ) < n.value := lt_of_lt_of_le (by positivity) h.low
  refine Nat.pos_of_ne_zero fun heq => ?_
  rw [value, heq] at hpos
  simp at hpos

/-- A numeral that approximates a double has no large exponent. -/
theorem Numeral.Approximates.exponent_le {n : Numeral} {b : Binary} (h : n.Approximates b)
    (hb : b.Finite) : n.exponent ≤ 1024 := by
  have hsignificand : (b.significand : ℚ) + 1 ≤ 2 ^ 53 := by exact_mod_cast hb.lt
  have hdigits : (1 : ℚ) ≤ n.digits := by exact_mod_cast h.digits_pos
  have hhigh := hb.high
  rcases Int.lt_or_le n.exponent 0 with hneg | hwhole
  · omega
  have hpower : (2 : ℚ) ^ n.exponent ≤ 2 ^ (1024 : Int) := by
    calc (2 : ℚ) ^ n.exponent ≤ 10 ^ n.exponent :=
          zpow_le_zpow_left₀ hwhole (by norm_num) (by norm_num)
      _ ≤ n.value := le_mul_of_one_le_left (by positivity) hdigits
      _ ≤ (4 * b.significand + 2) * 2 ^ (b.exponent - 2) := h.high
      _ ≤ 2 ^ (55 : Int) * 2 ^ (969 : Int) := by
          apply mul_le_mul _ _ (by positivity) (by positivity)
          · norm_num
            linarith
          · exact zpow_le_zpow_right₀ (by norm_num) (by omega)
      _ = 2 ^ (1024 : Int) := (zpow_add₀ (by norm_num) 55 969).symm
  exact (zpow_le_zpow_iff_right₀ (by norm_num)).mp hpower

/-- A numeral that approximates a double has no exponent far below that of the smallest one. -/
theorem Numeral.Approximates.le_exponent {n : Numeral} {b : Binary} (h : n.Approximates b) :
    -1139 ≤ n.exponent := by
  rcases Int.lt_or_le 0 n.exponent with hpos | hneg
  · omega
  obtain ⟨m, hm⟩ := Int.eq_ofNat_of_zero_le (Int.neg_nonneg_of_nonpos hneg)
  obtain hexponent : n.exponent = -(m : Int) := by omega
  have hword : (n.digits : ℚ) ≤ 2 ^ (64 : Int) := by
    have hle : n.digits ≤ 2 ^ 64 := h.digits_le.trans (by decide)
    exact_mod_cast hle
  have hten : (10 : ℚ) ^ n.exponent ≤ 2 ^ n.exponent := by
    rw [hexponent, zpow_neg, zpow_neg]
    apply inv_anti₀ (by positivity)
    exact zpow_le_zpow_left₀ (by omega) (by norm_num) (by norm_num)
  have hpower : (2 : ℚ) ^ (-1075 : Int) ≤ 2 ^ (64 + n.exponent) := by
    calc (2 : ℚ) ^ (-1075 : Int) = 2 ^ (-1074 : Int) / 2 := zpow_sub_one₀ (by norm_num) (-1074)
      _ ≤ n.digits * 10 ^ n.exponent := h.low
      _ ≤ 2 ^ (64 : Int) * 2 ^ n.exponent := mul_le_mul hword hten (by positivity) (by positivity)
      _ = 2 ^ (64 + n.exponent) := (zpow_add₀ (by norm_num) _ _).symm
  have hle := (zpow_le_zpow_iff_right₀ (by norm_num)).mp hpower
  omega

namespace Binary.Finite

variable {b : Binary}

/-- The search begins on the grid of the leading digit. -/
theorem leading_spec (h : b.Finite) :
    (10 : ℚ) ^ (Rounding.ofBinary b).leading 700 309 ≤ b.value ∧
      b.value < (10 : ℚ) ^ ((Rounding.ofBinary b).leading 700 309 + 1) := by
  have hsmall : (10 : ℚ) ^ (-390 : Int) ≤ 2 ^ (-1074 : Int) := by
    rw [zpow_neg, zpow_neg]
    apply inv_anti₀ (by positivity)
    exact_mod_cast (by decide +kernel : 2 ^ 1074 ≤ 10 ^ 390)
  have hlow : (10 : ℚ) ^ (-390 : Int) ≤
      (Rounding.ofBinary b).value * (Rounding.ofBinary b).unit := by
    rw [value_unit]
    exact hsmall.trans h.le_value
  obtain ⟨hfits, htop⟩ :=
    Rounding.leading_spec h.proper hlow 700 309 (by decide) (by decide)
  rw [value_unit] at hfits htop
  refine ⟨hfits, htop.resolve_left fun heq => ?_⟩
  rw [heq] at hfits
  have hlarge : (2 : ℚ) ^ 1024 ≤ 10 ^ (309 : Int) := by
    exact_mod_cast (by decide +kernel : 2 ^ 1024 ≤ 10 ^ 309)
  exact absurd (lt_of_le_of_lt (hlarge.trans hfits) h.value_lt) (lt_irrefl _)

theorem two_le_low (h : b.Finite) : 2 ≤ (Rounding.ofBinary b).low := by
  have hpos := h.pos
  unfold Rounding.ofBinary
  dsimp only
  split <;> omega

/-- Twenty places are more than a double has: a grid that fine meets the interval. -/
theorem fine_grid_lt_width (h : b.Finite) {k : Int} (hlow : (10 : ℚ) ^ k ≤ b.value) :
    (10 : ℚ) ^ (k - (19 : Nat)) < 3 * (Rounding.ofBinary b).unit := by
  have hpositive := h.proper.unit_pos
  have hsignificand : (b.significand : ℚ) < 2 ^ 53 := by exact_mod_cast h.lt
  have hmiddle : (Rounding.ofBinary b).value = 4 * b.significand := rfl
  rw [zpow_sub₀ (by norm_num), div_lt_iff₀ (by positivity)]
  calc (10 : ℚ) ^ k ≤ (Rounding.ofBinary b).value * (Rounding.ofBinary b).unit :=
        value_unit b ▸ hlow
    _ < 2 ^ 55 * (Rounding.ofBinary b).unit := by
      apply mul_lt_mul_of_pos_right _ hpositive
      rw [hmiddle]
      push_cast
      linarith
    _ ≤ 3 * (Rounding.ofBinary b).unit * (10 : ℚ) ^ ((19 : Nat) : Int) := by
      rw [zpow_natCast]
      nlinarith

/-- The search ends on a grid that is fine enough for the interval, and not much finer. -/
theorem firstHit_spec (h : b.Finite) (tie : Tie) (k : Int)
    (hlow : (10 : ℚ) ^ k ≤ b.value) (hhigh : b.value < (10 : ℚ) ^ (k + 1)) :
    ((Rounding.ofBinary b).firstHit tie 20 k).Approximates b := by
  have hproper := h.proper
  have hunit := unit_ofBinary b
  have hvalue := value_unit b
  have hhighest : (Rounding.ofBinary b).high = 4 * b.significand + 2 := rfl
  have hmiddle : (Rounding.ofBinary b).value = 4 * b.significand := rfl
  have hlowest := h.two_le_low
  have hwide := h.fine_grid_lt_width hlow
  generalize Rounding.ofBinary b = r at *
  have hpositive := hproper.unit_pos
  have hone : (1 : ℚ) ≤ b.significand := by exact_mod_cast h.pos
  have hsignificand : (b.significand : ℚ) < 2 ^ 53 := by exact_mod_cast h.lt
  obtain ⟨hholds, htop⟩ := Rounding.firstHit_spec hproper tie 19 k hwide
  generalize r.firstHit tie 20 k = n at *
  obtain ⟨hbelow, habove⟩ := Rounding.of_holds (hproper.inSteps _) hholds
  have hten : (0 : ℚ) < 10 ^ n.exponent := by positivity
  rw [Rounding.unit_inSteps, Rounding.low_inSteps, ← mul_div_assoc, div_le_iff₀ hten] at hbelow
  rw [Rounding.unit_inSteps, Rounding.high_inSteps, ← mul_div_assoc, le_div_iff₀ hten] at habove
  change r.low * r.unit ≤ n.value at hbelow
  change n.value ≤ r.high * r.unit at habove
  have htwo : (2 : ℚ) ≤ r.low := by exact_mod_cast hlowest
  refine ⟨?_, ?_, by rw [hunit, hhighest] at habove; exact_mod_cast habove⟩
  -- On the first grid there is one digit; on a later one the grid before was too wide.
  · have hdigits : (n.digits : ℚ) * 10 ^ n.exponent ≤ 2 ^ 60 * 10 ^ n.exponent := by
      rcases htop with heq | hle
      · calc n.value ≤ r.high * r.unit := habove
          _ ≤ 2 * (r.value * r.unit) := by
            rw [hhighest, hmiddle]
            push_cast
            nlinarith
          _ ≤ 2 * 10 ^ (n.exponent + 1) := by
            rw [hvalue, heq]
            linarith
          _ ≤ 2 ^ 60 * 10 ^ n.exponent := by
            rw [zpow_add_one₀ (by norm_num)]
            linarith
      · calc n.value ≤ r.high * r.unit := habove
          _ ≤ 2 ^ 55 * (3 * r.unit) := by
            rw [hhighest]
            push_cast
            nlinarith
          _ ≤ 2 ^ 55 * 10 ^ (n.exponent + 1) := by linarith
          _ ≤ 2 ^ 60 * 10 ^ n.exponent := by
            rw [zpow_add_one₀ (by norm_num)]
            linarith
    have hword : (n.digits : ℚ) ≤ 2 ^ 60 := le_of_mul_le_mul_right hdigits hten
    have hword : n.digits ≤ 2 ^ 60 := by exact_mod_cast hword
    rw [maxWord64]
    omega
  · calc (2 : ℚ) ^ (-1074 : Int) / 2 ≤ 2 ^ b.exponent / 2 :=
          div_le_div_of_nonneg_right (zpow_le_zpow_right₀ (by norm_num) h.low) (by norm_num)
      _ = 2 * r.unit := by
        rw [hunit, zpow_sub₀ (by norm_num)]
        ring
      _ ≤ r.low * r.unit := mul_le_mul_of_nonneg_right htwo hpositive.le
      _ ≤ n.value := hbelow

/-- The shortest decimal approximates what it is written for. -/
theorem approximates_shortest (h : b.Finite) (tie : Tie) : (shortest tie b).Approximates b := by
  obtain ⟨hlow, hhigh⟩ := h.leading_spec
  obtain ⟨hdigits, hbelow, habove⟩ := h.firstHit_spec tie _ hlow hhigh
  rw [← Numeral.value_trimmed 400] at hbelow habove
  exact ⟨(Numeral.digits_trimmed_le 400 _).trans hdigits, hbelow, habove⟩

end Binary.Finite

end TaskDiagram.Decimal
