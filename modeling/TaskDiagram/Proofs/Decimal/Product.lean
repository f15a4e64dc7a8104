import Mathlib

/-! # Products of doubles

A rounded product is larger than the product by at most one part in `2 ^ 52`, so a product that is
smaller than `2 ^ 1024` by more than that is finite.

The lemmas about the parts of a packed double come with Mathlib as a whole and with none of its
modules, so all of it is imported.
-/

open Float.Model Float.Model.UnpackedFloat

namespace TaskDiagram.Decimal

/-! ## Rounding -/

theorem mantissa_shiftRight (m : ExtendedMantissa) (k : Nat) :
    (m >>> k).mantissa = m.mantissa / 2 ^ k := by
  induction k with
  | zero => exact (Nat.div_one _).symm
  | succ k ih =>
      change (m >>> k).mantissa / 2 = _
      rw [ih, Nat.div_div_eq_div_mul, Nat.pow_succ]

theorem roundedMantissa_bounds (m : ExtendedMantissa) :
    m.mantissa ≤ m.roundedMantissa ∧ m.roundedMantissa ≤ m.mantissa + 1 := by
  obtain ⟨mantissa, roundBit, stickyBit⟩ := m
  unfold ExtendedMantissa.roundedMantissa
  cases roundBit <;> cases stickyBit <;>
    simp only [ExtendedMantissa.accuracy, Accuracy.roundToNearestEven] <;> omega

/-- The exponent that a number beyond one is moved to. -/
theorem targetExponent_eq {m : Nat} {e : Int} (h : 0 ≤ m.log2 + e) :
    Format.binary64.targetExponent (totalExponent m e) = m.log2 - 52 + e := by
  simp only [Format.targetExponent, totalExponent, Format.mantissaBits, Format.minExponent]
  norm_num
  omega

/-- A number with more bits than a double is cut off behind 53 of them. -/
theorem shiftToTargetExponent_exact {m : Nat} {e : Int} (hm : 52 ≤ m.log2)
    (h : 0 ≤ m.log2 + e) :
    ((shiftToTargetExponent .binary64 m e .exact).1.mantissa = m / 2 ^ (m.log2 - 52)) ∧
      (shiftToTargetExponent .binary64 m e .exact).2 = e + (m.log2 - 52 : Nat) := by
  have hshift : (m.log2 - 52 + e - e).toNat = m.log2 - 52 := by omega
  unfold shiftToTargetExponent shiftToExponent
  dsimp only
  rw [targetExponent_eq h, hshift]
  exact ⟨mantissa_shiftRight _ _, rfl⟩

/-- A positive double with 53 bits that is at least one and at most a bound. -/
structure Bounded (m : Nat) (e : Int) (bound : ℚ) : Prop where
  log2 : m.log2 = 52
  low : -52 ≤ e
  le : m * 2 ^ e ≤ bound

/-- Cutting bits off does not make a number larger. -/
theorem cut_le (m k : Nat) (e : Int) :
    ((m / 2 ^ k : Nat) : ℚ) * 2 ^ (e + k) ≤ m * 2 ^ e := by
  have hcut : ((m / 2 ^ k : Nat) : ℚ) * 2 ^ k ≤ m := by
    exact_mod_cast Nat.div_mul_le_self m (2 ^ k)
  rw [zpow_add₀ (by norm_num), zpow_natCast, mul_comm (2 ^ e : ℚ), ← mul_assoc]
  exact mul_le_mul_of_nonneg_right hcut (by positivity)

/-- The number above the one that is cut off is larger by one part in `2 ^ 52` at most. -/
theorem cut_succ_le {m k : Nat} (h : 2 ^ (52 + k) ≤ m) (e : Int) :
    ((m / 2 ^ k + 1 : Nat) : ℚ) * 2 ^ (e + k) ≤ m * 2 ^ e * (1 + 1 / 2 ^ 52) := by
  have hlarge : (2 : ℚ) ^ k ≤ m / 2 ^ 52 := by
    rw [le_div_iff₀ (by positivity), ← pow_add, Nat.add_comm k]
    exact_mod_cast h
  have hstep : ((m / 2 ^ k + 1 : Nat) : ℚ) * 2 ^ (e + k) =
      ((m / 2 ^ k : Nat) : ℚ) * 2 ^ (e + k) + 2 ^ k * 2 ^ e := by
    rw [zpow_add₀ (by norm_num), zpow_natCast]
    push_cast
    ring
  calc ((m / 2 ^ k + 1 : Nat) : ℚ) * 2 ^ (e + k)
      = ((m / 2 ^ k : Nat) : ℚ) * 2 ^ (e + k) + 2 ^ k * 2 ^ e := hstep
    _ ≤ m * 2 ^ e + m / 2 ^ 52 * 2 ^ e :=
        add_le_add (cut_le m k e) (mul_le_mul_of_nonneg_right hlarge (by positivity))
    _ = m * 2 ^ e * (1 + 1 / 2 ^ 52) := by ring

theorem ne_zero_of_log2 {n : Nat} (h : 0 < n.log2) : n ≠ 0 := by
  rintro rfl
  rw [Nat.log2_zero] at h
  cases h

theorem log2_cut {m k : Nat} (h : m.log2 = 52 + k) : (m / 2 ^ k).log2 = 52 := by
  obtain ⟨hlow, hhigh⟩ := (Nat.log2_eq_iff (ne_zero_of_log2 (by omega))).mp h
  have hpos : 0 < 2 ^ k := Nat.pow_pos (by decide)
  have hle : 2 ^ 52 ≤ m / 2 ^ k := by
    rw [Nat.le_div_iff_mul_le hpos, ← Nat.pow_add]
    exact hlow
  have hlt : m / 2 ^ k < 2 ^ 53 := by
    rw [Nat.div_lt_iff_lt_mul hpos, ← Nat.pow_add]
    exact Nat.lt_of_lt_of_eq hhigh (congrArg (2 ^ ·) (by omega))
  exact (Nat.log2_eq_iff (by omega)).mpr ⟨hle, hlt⟩

/-- Rounding up can add a bit. -/
theorem log2_rounded {m r : Nat} (hm : m.log2 = 52) (hlow : m ≤ r) (hhigh : r ≤ m + 1) :
    r.log2 = 52 ∨ r.log2 = 53 := by
  obtain ⟨hleast, hmost⟩ := (Nat.log2_eq_iff (ne_zero_of_log2 (by omega))).mp hm
  have hr : r ≠ 0 := by omega
  rcases Nat.lt_or_ge r (2 ^ 53) with hlt | hge
  · exact .inl ((Nat.log2_eq_iff hr).mpr ⟨hleast.trans hlow, hlt⟩)
  · exact .inr ((Nat.log2_eq_iff hr).mpr ⟨hge, by omega⟩)

theorem roundWithAccuracy_bounded {m : Nat} {e : Int} (hm : 52 ≤ m.log2) (h : 0 ≤ m.log2 + e) :
    ∃ m' e' hpos, roundWithAccuracy .binary64 .positive m e .exact = .finite .positive m' e' hpos ∧
      Bounded m' e' (m * 2 ^ e * (1 + 1 / 2 ^ 52)) ∧ m.log2 + e ≤ 52 + e' := by
  obtain ⟨hcut, hexponent⟩ := shiftToTargetExponent_exact hm h
  obtain ⟨k, hk⟩ := Nat.exists_eq_add_of_le hm
  have hk' : m.log2 - 52 = k := by omega
  rw [hk'] at hcut hexponent
  unfold roundWithAccuracy
  generalize shiftToTargetExponent .binary64 m e .exact = first at *
  obtain ⟨first, e₁⟩ := first
  dsimp only at hcut hexponent ⊢
  subst hexponent
  obtain ⟨hlow, hhigh⟩ := roundedMantissa_bounds first
  rw [hcut] at hlow hhigh
  generalize first.roundedMantissa = r at *
  -- A bit that rounding up has added is cut off again.
  have hlog := log2_rounded (log2_cut hk) hlow hhigh
  obtain ⟨hcut', hexponent'⟩ := shiftToTargetExponent_exact (m := r) (e := e + k) (by omega)
    (by omega)
  generalize shiftToTargetExponent .binary64 r (e + k) .exact = second at *
  obtain ⟨second, e₂⟩ := second
  dsimp only at hcut' hexponent' ⊢
  subst hexponent'
  have hfinal : second.mantissa.log2 = 52 := by
    rw [hcut']
    exact log2_cut (by omega)
  have hne : second.mantissa ≠ 0 := ne_zero_of_log2 (by omega)
  refine ⟨second.mantissa, _, Nat.pos_of_ne_zero hne, dif_neg hne, ⟨hfinal, by omega, ?_⟩, by omega⟩
  have hmany : 2 ^ (52 + k) ≤ m := hk ▸ Nat.log2_self_le (ne_zero_of_log2 (by omega))
  calc (second.mantissa : ℚ) * 2 ^ (e + k + (r.log2 - 52 : Nat)) ≤ r * 2 ^ (e + k) := by
        rw [hcut']
        exact cut_le r _ _
    _ ≤ ((m / 2 ^ k + 1 : Nat) : ℚ) * 2 ^ (e + k) :=
        mul_le_mul_of_nonneg_right (Nat.cast_le.mpr hhigh) (by positivity)
    _ ≤ m * 2 ^ e * (1 + 1 / 2 ^ 52) := cut_succ_le hmany e

/-! ## Doubles -/

/-- What has 53 bits and is smaller than `2 ^ 1024` is not changed by packing. -/
theorem unpack_pack (sign : Sign) {m : Nat} {e : Int} (hpos : 0 < m) (hm : m.log2 = 52)
    (hlow : -52 ≤ e) (hhigh : e ≤ 971) :
    (Float.Model.pack (.finite sign m e hpos)).unpack = .finite sign m e hpos := by
  obtain ⟨hleast, hmost⟩ := (Nat.log2_eq_iff (Nat.ne_of_gt hpos)).mp hm
  obtain ⟨field, hfield⟩ := Int.eq_ofNat_of_zero_le (show 0 ≤ e + 1075 by omega)
  have hexponent : (BitVec.ofNat 11 field).toNat = field := by
    rw [BitVec.toNat_ofNat]
    exact Nat.mod_eq_of_lt (by omega)
  have hnotOnes : BitVec.ofNat 11 field ≠ -1#11 := by
    intro heq
    have hvalue := congrArg BitVec.toNat heq
    rw [hexponent] at hvalue
    change field = 2047 at hvalue
    omega
  have hnotZero : BitVec.ofNat 11 field ≠ 0#11 := by
    intro heq
    have hvalue := congrArg BitVec.toNat heq
    rw [hexponent] at hvalue
    change field = 0 at hvalue
    omega
  have hmantissa : (1#1 ++ BitVec.ofNat 52 m).toNat = m := by
    rw [BitVec.toNat_append, ← Nat.shiftLeft_add_eq_or_of_lt (BitVec.isLt _), BitVec.toNat_ofNat]
    change 2 ^ 52 + m % 2 ^ 52 = m
    omega
  have hbiased : (e + Format.binary64.exponentBias + (52 : Nat)).toNat = field := by
    change (e + 1023 + 52).toNat = field
    omega
  -- The exponent is neither the one of zero nor that of infinity, so the leading bit is left out.
  have hpacked : UnpackedFloat.pack .binary64 (.finite sign m e hpos) =
      packComponents .binary64 sign (BitVec.ofNat 11 field) (BitVec.ofNat 52 m) := by
    unfold UnpackedFloat.pack
    dsimp only
    rw [hbiased, if_neg (show ¬ 2 ^ 11 ≤ field + 1 by omega), if_pos (by rw [hm]; rfl)]
  change UnpackedFloat.unpack .binary64 (UnpackedFloat.pack .binary64 _) = _
  rw [hpacked]
  unfold UnpackedFloat.unpack
  have hback : (field : Int) - (Format.binary64.exponentBias + (52 : Nat)) = e := by
    change (field : Int) - (1023 + 52) = e
    omega
  simp only [unpackMantissa_packComponents, unpackExponent_packComponents,
    unpackSign_packComponents, hnotOnes, hnotZero, if_false, hmantissa, hexponent, hback]
  cases sign <;> rfl

/-- A double that is at least one and at most a bound. -/
def AtMost (x : Float) (bound : ℚ) : Prop :=
  ∃ m e hpos, x.toModel.unpack = .finite .positive m e hpos ∧ Bounded m e bound

theorem AtMost.mono {x : Float} {a b : ℚ} (h : AtMost x a) (hle : a ≤ b) : AtMost x b := by
  obtain ⟨m, e, hpos, hx, hm⟩ := h
  exact ⟨m, e, hpos, hx, hm.log2, hm.low, hm.le.trans hle⟩

theorem AtMost.not_isInf {x : Float} {bound : ℚ} (h : AtMost x bound) : x.isInf = false := by
  obtain ⟨m, e, hpos, hx, -⟩ := h
  change x.toModel.unpack.isInf = false
  rw [hx]
  rfl

theorem Bounded.atMost {m : Nat} {e : Int} {bound : ℚ} (h : Bounded m e bound) (hpos : 0 < m)
    (hbound : bound < 2 ^ 1024) :
    AtMost (.ofModel (Float.Model.pack (.finite .positive m e hpos))) bound := by
  have hlarge : (2 : ℚ) ^ (52 : Int) ≤ m := by
    exact_mod_cast h.log2 ▸ Nat.log2_self_le (Nat.ne_of_gt hpos)
  have hpower : (2 : ℚ) ^ (52 + e) < 2 ^ (1024 : Int) := by
    calc (2 : ℚ) ^ (52 + e) = 2 ^ (52 : Int) * 2 ^ e := zpow_add₀ (by norm_num) _ _
      _ ≤ m * 2 ^ e := mul_le_mul_of_nonneg_right hlarge (by positivity)
      _ ≤ bound := h.le
      _ < 2 ^ 1024 := hbound
      _ = 2 ^ (1024 : Int) := (zpow_natCast 2 1024).symm
  have hexponent := (zpow_lt_zpow_iff_right₀ (by norm_num)).mp hpower
  exact ⟨m, e, hpos, unpack_pack .positive hpos h.log2 h.low (by omega), h⟩

/-- A product of doubles is the exact product, rounded once. -/
theorem toModel_mul {x y : Float} {m n : Nat} {e f : Int} {hpos : 0 < m} {hpos' : 0 < n}
    (hx : x.toModel.unpack = .finite .positive m e hpos)
    (hy : y.toModel.unpack = .finite .positive n f hpos') :
    (x * y).toModel = Float.Model.pack
      (roundWithAccuracy .binary64 .positive (m * n) (e + f) .exact) := by
  change Float.Model.pack (UnpackedFloat.mul .binary64 x.toModel.unpack y.toModel.unpack) = _
  rw [hx, hy]
  rfl

/-- The exact product of doubles has at least 105 bits. -/
theorem le_log2_mul {m n : Nat} (hm : m.log2 = 52) (hn : n.log2 = 52) : 104 ≤ (m * n).log2 := by
  have hne : m ≠ 0 := ne_zero_of_log2 (by omega)
  have hne' : n ≠ 0 := ne_zero_of_log2 (by omega)
  have hlog := (Nat.log2_eq_iff hne).mp hm
  have hlog' := (Nat.log2_eq_iff hne').mp hn
  rw [Nat.le_log2 (Nat.mul_ne_zero hne hne')]
  calc 2 ^ 104 = 2 ^ 52 * 2 ^ 52 := Nat.pow_add 2 52 52
    _ ≤ m * n := Nat.mul_le_mul hlog.1 hlog'.1

/-- A product of doubles is finite as long as it stays away from `2 ^ 1024`. -/
theorem AtMost.mul {x y : Float} {a b : ℚ} (hx : AtMost x a) (hy : AtMost y b)
    (hbound : a * b * (1 + 1 / 2 ^ 52) < 2 ^ 1024) : AtMost (x * y) (a * b * (1 + 1 / 2 ^ 52)) := by
  obtain ⟨m, e, hpos, hx, hm⟩ := hx
  obtain ⟨n, f, hpos', hy, hn⟩ := hy
  have hmul := toModel_mul hx hy
  -- The exact product is rounded by cutting it off.
  have hmany := le_log2_mul hm.log2 hn.log2
  have hlow := hm.low
  have hlow' := hn.low
  obtain ⟨m', e', hpos'', hround, hbounded, -⟩ :=
    roundWithAccuracy_bounded (m := m * n) (e := e + f) (by omega) (by omega)
  have hle : ((m * n : Nat) : ℚ) * 2 ^ (e + f) * (1 + 1 / 2 ^ 52) ≤ a * b * (1 + 1 / 2 ^ 52) := by
    apply mul_le_mul_of_nonneg_right _ (by positivity)
    calc ((m * n : Nat) : ℚ) * 2 ^ (e + f) = m * 2 ^ e * (n * 2 ^ f) := by
          rw [zpow_add₀ (by norm_num)]
          push_cast
          ring
      _ ≤ a * b := mul_le_mul hm.le hn.le (by positivity)
          (le_trans (by positivity) hm.le)
  rw [hround] at hmul
  have hproduct := Bounded.atMost ⟨hbounded.log2, hbounded.low, hbounded.le.trans hle⟩ hpos'' hbound
  obtain ⟨_, _, _, hunpack, hwithin⟩ := hproduct
  exact ⟨_, _, _, (congrArg Float.Model.unpack hmul).trans hunpack, hwithin⟩

/-! ## Whole numbers and powers of ten -/

/-- Whether a double is at most a whole number and one part in `2 ^ 52` of it. -/
def isAtMost (x : Float) (bound : Nat) : Bool :=
  match x.toModel.unpack with
  | .finite .positive m e _ =>
      m.log2 == 52 && decide (-52 ≤ e) &&
        decide (m * 2 ^ e.toNat * 2 ^ 52 ≤ bound * (2 ^ 52 + 1) * 2 ^ (-e).toNat)
  | _ => false

theorem atMost_of_isAtMost {x : Float} {bound : Nat} (h : isAtMost x bound = true) :
    AtMost x (bound * (1 + 1 / 2 ^ 52)) := by
  unfold isAtMost at h
  split at h
  next m e hpos hx =>
    obtain ⟨⟨hlog, hlow⟩, hle⟩ : (m.log2 = 52 ∧ -52 ≤ e) ∧
        m * 2 ^ e.toNat * 2 ^ 52 ≤ bound * (2 ^ 52 + 1) * 2 ^ (-e).toNat := by simpa using h
    refine ⟨m, e, hpos, hx, hlog, hlow, ?_⟩
    have hle : (m : ℚ) * 2 ^ e.toNat * 2 ^ 52 ≤ bound * (2 ^ 52 + 1) * 2 ^ (-e).toNat := by
      exact_mod_cast hle
    have hpower : (2 : ℚ) ^ e = 2 ^ e.toNat / 2 ^ (-e).toNat := by
      rw [← zpow_natCast, ← zpow_natCast, ← zpow_sub₀ (by norm_num)]
      congr 1
      omega
    have hpositive : (0 : ℚ) < 2 ^ (-e).toNat := by positivity
    rw [hpower, ← mul_div_assoc, div_le_iff₀ hpositive]
    linarith
  next => cases h

theorem isAtMost_exactPower : ∀ k : Fin Float.exactlyRepresentablePowersOfTen.size,
    isAtMost Float.exactlyRepresentablePowersOfTen[k] (10 ^ k.val) = true := by
  decide +kernel

theorem log2_shiftLeft {n : Nat} (h : n ≠ 0) (k : Nat) : (n <<< k).log2 = n.log2 + k := by
  have hpos : 0 < 2 ^ k := Nat.pow_pos (by decide)
  rw [Nat.shiftLeft_eq, Nat.log2_eq_iff (Nat.mul_ne_zero h (Nat.ne_of_gt hpos))]
  obtain ⟨hlow, hhigh⟩ := (Nat.log2_eq_iff h).mp rfl
  rw [Nat.add_right_comm, Nat.pow_add 2 _ k, Nat.pow_add 2 _ k]
  exact ⟨Nat.mul_le_mul_right _ hlow, Nat.mul_lt_mul_of_pos_right hhigh hpos⟩

/-- A whole number with some of the lower bits below the point. -/
theorem shiftLeft_mul_zpow (n k : Nat) : ((n <<< k : Nat) : ℚ) * 2 ^ (-(k : Int)) = n := by
  rw [Nat.shiftLeft_eq, zpow_neg, zpow_natCast]
  push_cast
  rw [mul_assoc, mul_inv_cancel₀ (by positivity), mul_one]

theorem le_rounded {a : ℚ} (h : 0 ≤ a) : a * (1 + 1 / 2 ^ 52) ≤ a * (1 + 1 / 2 ^ 52) ^ 3 :=
  mul_le_mul_of_nonneg_left (by norm_num) h

/-- A whole number of at most 53 bits as a double. -/
theorem atMost_toFloat {n : Nat} (hpos : 0 < n) (hn : n < 2 ^ 53) :
    AtMost n.toUInt64.toFloat (n * (1 + 1 / 2 ^ 52)) := by
  have hword : n.toUInt64.toNat = n := UInt64.toNat_ofNat_of_lt' (by rw [UInt64.size]; omega)
  have hpositive : compare (n : Int) 0 = .gt := by
    rw [compare_gt_iff_gt]
    exact_mod_cast hpos
  have hlog : n.log2 ≤ 52 := Nat.le_of_lt_succ ((Nat.log2_lt (Nat.ne_of_gt hpos)).mpr hn)
  obtain ⟨k, hk⟩ := Nat.exists_eq_add_of_le hlog
  -- The number is shifted up to 53 bits, which are all there is to round.
  have hround : UnpackedFloat.round .binary64 .positive n 0 =
      roundWithAccuracy .binary64 .positive (n <<< k) (-k) .exact := by
    have hshift : (0 - (n.log2 - 52 + 0 : Int)).toNat = k := by omega
    unfold UnpackedFloat.round decreaseExponent
    dsimp only
    rw [targetExponent_eq (by omega), hshift, Int.zero_sub]
  have hfloat : n.toUInt64.toFloat.toModel = Float.Model.pack
      (roundWithAccuracy .binary64 .positive (n <<< k) (-k) .exact) := by
    change Float.Model.pack (UnpackedFloat.normalize .binary64 (n.toUInt64.toNat : Int) 0 _) = _
    rw [hword, UnpackedFloat.normalize, hpositive]
    exact congrArg Float.Model.pack hround
  have hbits : (n <<< k).log2 = 52 := (log2_shiftLeft (Nat.ne_of_gt hpos) k).trans hk.symm
  obtain ⟨m, e, hpos', hm, hbounded, -⟩ :=
    roundWithAccuracy_bounded (m := n <<< k) (e := -k) (by omega) (by omega)
  rw [shiftLeft_mul_zpow] at hbounded
  rw [hm] at hfloat
  have hbound : (n : ℚ) * (1 + 1 / 2 ^ 52) < 2 ^ 1024 := by
    have hn : (n : ℚ) < 2 ^ 53 := by exact_mod_cast hn
    calc (n : ℚ) * (1 + 1 / 2 ^ 52) ≤ n * 2 :=
          mul_le_mul_of_nonneg_left (by norm_num) (Nat.cast_nonneg n)
      _ < 2 ^ 53 * 2 := mul_lt_mul_of_pos_right hn (by norm_num)
      _ = 2 ^ 54 := by norm_num
      _ ≤ 2 ^ 1024 := pow_le_pow_right₀ (by norm_num) (by norm_num)
  obtain ⟨_, _, _, hunpack, hwithin⟩ := hbounded.atMost hpos' hbound
  exact ⟨_, _, _, (congrArg Float.Model.unpack hfloat).trans hunpack, hwithin⟩

section Scientific

variable {n k : Nat}

/-- Digits and a power of ten become a double by rounding what they stand for once. -/
theorem model_ofScientific_eq (hpos : 0 < n) (hk : k ≤ 308) :
    Float.Model.ofScientific n k = Float.Model.pack
      (roundWithAccuracy .binary64 .positive (n <<< 53 * 10 ^ k) (-(53 : Nat)) .exact) := by
  have hne : n ≠ 0 := Nat.ne_of_gt hpos
  -- The power is within the bounds beyond which nothing is computed.
  have hlarge : ¬ (k : Int) > 2 ^ Format.binary64.exponentBits := by
    change ¬ (k : Int) > 2048
    omega
  have hsmall : ¬ (k : Int) < -((2 : Int) ^ Format.binary64.exponentBits + n.log2) := by
    change ¬ (k : Int) < -(2048 + n.log2)
    omega
  unfold Float.Model.ofScientific UnpackedFloat.ofScientific
  rw [dif_neg hne, if_neg hlarge, if_neg hsmall, if_pos (Int.natCast_nonneg k)]
  rfl

theorem le_log2_scientific (hpos : 0 < n) (k : Nat) : n.log2 + 53 ≤ (n <<< 53 * 10 ^ k).log2 := by
  have hne : n ≠ 0 := Nat.ne_of_gt hpos
  have hten : 0 < 10 ^ k := Nat.pow_pos (by decide)
  have hshift : n <<< 53 ≠ 0 := by
    rw [Nat.shiftLeft_eq]
    exact Nat.mul_ne_zero hne (by decide)
  rw [← log2_shiftLeft hne, Nat.le_log2 (Nat.mul_ne_zero hshift (Nat.ne_of_gt hten))]
  exact (Nat.log2_self_le hshift).trans (Nat.le_mul_of_pos_right _ hten)

/-- Digits and a power of ten as a double, rounded once. -/
theorem atMost_model_ofScientific (hpos : 0 < n) (hk : k ≤ 308)
    (hbound : (n : ℚ) * 10 ^ k * (1 + 1 / 2 ^ 52) < 2 ^ 1024) :
    AtMost (.ofModel (Float.Model.ofScientific n k)) (n * 10 ^ k * (1 + 1 / 2 ^ 52)) := by
  have hmany := le_log2_scientific hpos k
  obtain ⟨m, e, hpos', hm, hbounded, -⟩ :=
    roundWithAccuracy_bounded (m := n <<< 53 * 10 ^ k) (e := -(53 : Nat)) (by omega) (by omega)
  have hvalue : ((n <<< 53 * 10 ^ k : Nat) : ℚ) * 2 ^ (-((53 : Nat) : Int)) = n * 10 ^ k := by
    rw [Nat.cast_mul, mul_right_comm, shiftLeft_mul_zpow, Nat.cast_pow, Nat.cast_ofNat]
  rw [hvalue] at hbounded
  rw [model_ofScientific_eq hpos hk, hm]
  exact hbounded.atMost hpos' hbound

/-- Digits and a power of ten as a double. Few digits and a low power are each a double of their
own, and their product is rounded. -/
theorem atMost_ofScientific (hpos : 0 < n) (hk : k ≤ 308)
    (hbound : (n : ℚ) * 10 ^ k * (1 + 1 / 2 ^ 52) ^ 3 < 2 ^ 1024) :
    AtMost (Float.ofScientific n false k) (n * 10 ^ k * (1 + 1 / 2 ^ 52) ^ 3) := by
  unfold Float.ofScientific
  split
  next h =>
    have hthrice : (n : ℚ) * (1 + 1 / 2 ^ 52) * ((10 ^ k : Nat) * (1 + 1 / 2 ^ 52)) *
        (1 + 1 / 2 ^ 52) = n * 10 ^ k * (1 + 1 / 2 ^ 52) ^ 3 := by
      push_cast
      ring
    have hpower := atMost_of_isAtMost (isAtMost_exactPower ⟨k, Nat.lt_succ_of_le h.2⟩)
    have hmul := (atMost_toFloat hpos h.1).mul hpower (hthrice ▸ hbound)
    rw [hthrice] at hmul
    exact hmul
  next =>
    have honce := le_rounded (show (0 : ℚ) ≤ n * 10 ^ k by positivity)
    exact (atMost_model_ofScientific hpos hk (honce.trans_lt hbound)).mono honce

end Scientific

end TaskDiagram.Decimal
