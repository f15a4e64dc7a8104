import TaskDiagram.Decimal.Whole
import TaskDiagram.Json.Number
import TaskDiagram.Proofs.Decimal.Interval
import TaskDiagram.Proofs.Decimal.Product

/-! # Doubles beyond 64 bits

Rounding never takes a number below a power of two. So the double of a whole number that is beyond
64 bits is beyond them as well, unless it is infinite, and the whole number it is read as is the
nearest bound.
-/

open Float.Model Float.Model.UnpackedFloat

namespace TaskDiagram.Decimal

/-! ## Whole doubles -/

section Bits

variable (x : Float)

theorem toNat_unpackMantissa :
    (@unpackMantissa .binary64 x.toModel.toBits.toBitVec).toNat = x.toBits.toNat % hiddenBit := by
  unfold unpackMantissa
  rw [BitVec.toNat_cast, BitVec.extractLsb_toNat, Nat.shiftRight_zero]
  rfl

/-- The sign of a double is the first of its bits. -/
theorem toNat_unpackSign :
    (@unpackSign .binary64 x.toModel.toBits.toBitVec).toNat =
      x.toBits.toNat / hiddenBit / 2048 := by
  unfold unpackSign
  rw [BitVec.toNat_cast, BitVec.extractLsb_toNat, Nat.shiftRight_eq_div_pow]
  have hlt : x.toModel.toBits.toBitVec.toNat < 2 ^ 64 := BitVec.isLt _
  change x.toModel.toBits.toBitVec.toNat / 2 ^ 63 % 2 =
    x.toModel.toBits.toBitVec.toNat / hiddenBit / 2048
  rw [Nat.div_div_eq_div_mul, hiddenBit]
  omega

/-- The sign of a double as it is applied to a magnitude. -/
theorem apply_unpackSign (n : Int) :
    (Sign.ofBitVec (@unpackSign .binary64 x.toModel.toBits.toBitVec)).apply n =
      if isNegative x then -n else n := by
  rw [isNegative, ← toNat_unpackSign]
  generalize @unpackSign .binary64 x.toModel.toBits.toBitVec = bit
  have hbit : bit = 0#1 ∨ bit = 1#1 := by
    have hlt := bit.isLt
    have hcases : bit.toNat = 0 ∨ bit.toNat = 1 := by omega
    exact hcases.imp (fun h => BitVec.eq_of_toNat_eq h) fun h => BitVec.eq_of_toNat_eq h
  rcases hbit with rfl | rfl <;> rfl

end Bits

/-- The parts of a double that is large enough to have no digits behind the point. -/
theorem parts_of_unpack {x : Float} {sign : Sign} {m : Nat} {e : Int} {hpos : 0 < m}
    (h : x.toModel.unpack = .finite sign m e hpos) (he : 0 ≤ e) :
    sign = .ofBitVec (@unpackSign .binary64 x.toModel.toBits.toBitVec) ∧
      exponentField x ≠ 2047 ∧ Binary.ofFloat x = ⟨m, e⟩ := by
  have hfield := toNat_unpackExponent x
  unfold Float.Model.unpack UnpackedFloat.unpack at h
  dsimp only at h
  split at h
  next => split at h <;> cases h
  next hones =>
    split at h
    next hzero =>
      -- What is smaller than all doubles of 53 bits is no whole number.
      split at h
      · cases h
      · obtain ⟨-, -, hexponent⟩ := UnpackedFloat.finite.inj h
        rw [hzero] at hexponent
        change ((0 : Nat) : Int) - (1023 + 52) + 1 = e at hexponent
        omega
    next hzero =>
      obtain ⟨rfl, hm, hexponent⟩ := UnpackedFloat.finite.inj h
      have hnotOnes : exponentField x ≠ 2047 := by
        intro heq
        refine hones (BitVec.eq_of_toNat_eq ?_)
        rw [hfield, heq]
        rfl
      have hnotZero : exponentField x ≠ 0 := by
        intro heq
        refine hzero (BitVec.eq_of_toNat_eq ?_)
        rw [hfield, heq]
        rfl
      have hsignificand : x.toBits.toNat % hiddenBit + hiddenBit = m := by
        rw [← hm, BitVec.toNat_append, ← Nat.shiftLeft_add_eq_or_of_lt (BitVec.isLt _),
          toNat_unpackMantissa]
        exact Nat.add_comm _ _
      rw [hfield] at hexponent
      change (exponentField x : Int) - (1023 + 52) = e at hexponent
      refine ⟨rfl, hnotOnes, ?_⟩
      unfold Binary.ofFloat
      dsimp only
      rw [if_neg (by simpa using hnotZero), hsignificand, ← hexponent]
      rfl

/-- A double without digits behind the point is a whole number. -/
theorem whole?_of_unpack {x : Float} {sign : Sign} {m : Nat} {e : Int} {hpos : 0 < m}
    (h : x.toModel.unpack = .finite sign m e hpos) (he : 0 ≤ e) :
    whole? x = some (sign.apply (m * 2 ^ e.toNat : Nat)) := by
  obtain ⟨hsign, hfield, hmagnitude⟩ := parts_of_unpack h he
  rw [whole?, if_neg (by simpa using hfield), hmagnitude, Binary.whole?, if_pos he, hsign,
    apply_unpackSign]
  rfl

/-! ## Lower bounds -/

/-- A positive double with 53 bits that is at least a power of two. -/
def Reaches (x : Float) (power : Int) : Prop :=
  ∃ m e hpos, x.toModel.unpack = .finite .positive m e hpos ∧ m.log2 = 52 ∧ -52 ≤ e ∧ e ≤ 971 ∧
    power ≤ 52 + e

theorem Reaches.mono {x : Float} {a b : Int} (h : Reaches x b) (hle : a ≤ b) : Reaches x a := by
  obtain ⟨m, e, hpos, hx, hm, hlow, hhigh, hreach⟩ := h
  exact ⟨m, e, hpos, hx, hm, hlow, hhigh, hle.trans hreach⟩

/-- A number whose exponent is too large is packed as infinity. -/
theorem isInf_pack {m : Nat} {e : Int} (hpos : 0 < m) (he : 971 < e) :
    (Float.ofModel (Float.Model.pack (.finite .positive m e hpos))).isInf = true := by
  have hlarge : 2 ^ 11 ≤ (e + Format.binary64.exponentBias + (52 : Nat)).toNat + 1 := by
    change 2 ^ 11 ≤ (e + 1023 + 52).toNat + 1
    omega
  have hpacked : UnpackedFloat.pack .binary64 (.finite .positive m e hpos) =
      packedInfinity .binary64 .positive := if_pos hlarge
  change (UnpackedFloat.unpack .binary64 (UnpackedFloat.pack .binary64 _)).isInf = true
  rw [hpacked]
  decide

/-- An exact number that is rounded stays above a power of two, or becomes infinite. -/
theorem reaches_round {m : Nat} {e power : Int} (hm : 52 ≤ m.log2) (h : 0 ≤ m.log2 + e)
    (hpower : power ≤ m.log2 + e) {x : Float} (hx : x.toModel = Float.Model.pack
      (roundWithAccuracy .binary64 .positive m e .exact)) : x.isInf = true ∨ Reaches x power := by
  obtain ⟨m', e', hpos, hround, hbounded, hlog⟩ := roundWithAccuracy_bounded hm h
  rw [hround] at hx
  obtain rfl : x = .ofModel (Float.Model.pack (.finite .positive m' e' hpos)) :=
    congrArg Float.ofModel hx
  by_cases he : e' ≤ 971
  · have hunpack := unpack_pack .positive hpos hbounded.log2 hbounded.low he
    exact .inr ⟨m', e', hpos, hunpack, hbounded.log2, hbounded.low, he, by omega⟩
  · exact .inl (isInf_pack hpos (by omega))

/-- A product reaches the product of the powers that its factors reach, or is infinite. -/
theorem Reaches.mul {x y : Float} {a b : Int} (hx : Reaches x a) (hy : Reaches y b) :
    (x * y).isInf = true ∨ Reaches (x * y) (a + b) := by
  obtain ⟨m, e, hpos, hx, hm, hlow, -, ha⟩ := hx
  obtain ⟨n, f, hpos', hy, hn, hlow', -, hb⟩ := hy
  have hmany := le_log2_mul hm hn
  exact reaches_round (by omega) (by omega) (by omega) (toModel_mul hx hy)

/-- Beyond what fits 53 bits and a low power of ten, a decimal is rounded once. -/
theorem reaches_ofScientific {n k : Nat} (hpos : 0 < n) (hk : k ≤ 308)
    (hlarge : 2 ^ 53 ≤ n ∨ 22 < k) (hroom : (n : ℚ) * 10 ^ k * (1 + 1 / 2 ^ 52) ^ 3 < 2 ^ 1024) :
    Reaches (Float.ofScientific n false k) (n * 10 ^ k).log2 := by
  have hvalue : n * 10 ^ k ≠ 0 := Nat.ne_of_gt (Nat.mul_pos hpos (Nat.pow_pos (by decide)))
  have hlog : (n <<< 53 * 10 ^ k).log2 = (n * 10 ^ k).log2 + 53 := by
    rw [← log2_shiftLeft hvalue, Nat.shiftLeft_eq, Nat.shiftLeft_eq, Nat.mul_right_comm]
  have hfloat : (Float.ofScientific n false k).toModel = Float.Model.pack
      (roundWithAccuracy .binary64 .positive (n <<< 53 * 10 ^ k) (-(53 : Nat)) .exact) := by
    rw [Float.ofScientific, dif_neg (by omega), ← model_ofScientific_eq hpos hk]
    rfl
  have hfinite := (atMost_ofScientific hpos hk hroom).not_isInf
  generalize (n * 10 ^ k).log2 = log at hlog ⊢
  rcases @reaches_round _ _ log (by omega) (by omega) (by omega) _ hfloat with hinf | hreaches
  · rw [hfinite] at hinf
    cases hinf
  · exact hreaches

/-- A whole number beyond 53 bits as a double. -/
theorem reaches_ofNat {n : Nat} (h : 2 ^ 53 ≤ n) (hbound : n ≤ maxWord64) :
    Reaches (Float.ofNat n) n.log2 := by
  have hroom : (n : ℚ) * 10 ^ 0 * (1 + 1 / 2 ^ 52) ^ 3 < 2 ^ 1024 := by
    have hle : (n : ℚ) ≤ 2 ^ 64 := by exact_mod_cast hbound.trans (by decide)
    calc (n : ℚ) * 10 ^ 0 * (1 + 1 / 2 ^ 52) ^ 3 ≤ 2 ^ 64 * 10 ^ 0 * (1 + 1 / 2 ^ 52) ^ 3 := by
          gcongr
      _ < 2 ^ 65 := by norm_num
      _ < 2 ^ 1024 := pow_lt_pow_right₀ (by norm_num) (by norm_num)
  have hpos : 0 < n := Nat.lt_of_lt_of_le (by decide) h
  have hreaches := reaches_ofScientific hpos (Nat.zero_le _) (.inl h) hroom
  rwa [pow_zero, Nat.mul_one] at hreaches

/-- The powers of ten that are tabled are finite after three roundings. -/
theorem ten_pow_room {k : Nat} (hk : k ≤ 308) :
    (10 : ℚ) ^ k * (1 + 1 / 2 ^ 52) ^ 3 < 2 ^ 1024 := by
  obtain ⟨bound, hbound, hlt⟩ : ∃ bound, bound = 308 ∧
      10 ^ bound * (2 ^ 52 + 1) ^ 3 < 2 ^ 1024 * (2 ^ 52) ^ 3 := ⟨308, rfl, by decide +kernel⟩
  have hlt : (10 : ℚ) ^ bound * (2 ^ 52 + 1) ^ 3 < 2 ^ 1024 * (2 ^ 52) ^ 3 := by exact_mod_cast hlt
  calc (10 : ℚ) ^ k * (1 + 1 / 2 ^ 52) ^ 3 ≤ 10 ^ bound * (1 + 1 / 2 ^ 52) ^ 3 := by
        gcongr
        · norm_num
        · omega
    _ = 10 ^ bound * (2 ^ 52 + 1) ^ 3 / (2 ^ 52) ^ 3 := by ring
    _ < 2 ^ 1024 := (div_lt_iff₀ (by positivity)).mpr hlt

/-- The tests of `Reaches`, which can be computed. -/
def reachesEight (x : Float) : Bool :=
  match x.toModel.unpack with
  | .finite .positive m e _ => m.log2 == 52 && decide (-49 ≤ e) && decide (e ≤ 971)
  | _ => false

theorem reaches_of_reachesEight {x : Float} (h : reachesEight x = true) : Reaches x 3 := by
  unfold reachesEight at h
  split at h
  next m e hpos hx =>
    obtain ⟨⟨hlog, hlow⟩, hhigh⟩ : (m.log2 = 52 ∧ -49 ≤ e) ∧ e ≤ 971 := by simpa using h
    exact ⟨m, e, hpos, hx, hlog, by omega, hhigh, by omega⟩
  next => cases h

theorem reachesEight_powerOfTen : ∀ k : Fin 22, reachesEight (Json.powerOfTen (k + 1)) = true := by
  decide +kernel

/-- The powers of ten but the first reach eight. -/
theorem reaches_powerOfTen {k : Nat} (hpos : 0 < k) (hk : k ≤ 308) :
    Reaches (Json.powerOfTen k) 3 := by
  rcases Nat.lt_or_ge 22 k with hlarge | hsmall
  · have height : 3 ≤ (1 * 10 ^ k).log2 := by
      rw [Nat.one_mul, Nat.le_log2 (Nat.ne_of_gt (Nat.pow_pos (by decide)))]
      calc 2 ^ 3 ≤ 10 ^ 1 := by decide
        _ ≤ 10 ^ k := Nat.pow_le_pow_right (by decide) hpos
    have hroom : ((1 : Nat) : ℚ) * 10 ^ k * (1 + 1 / 2 ^ 52) ^ 3 < 2 ^ 1024 := by
      rw [Nat.cast_one, one_mul]
      exact ten_pow_room hk
    exact (reaches_ofScientific (by decide) hk (.inr hlarge) hroom).mono (by exact_mod_cast height)
  · obtain ⟨k, rfl⟩ := Nat.exists_eq_succ_of_ne_zero (Nat.ne_of_gt hpos)
    exact reaches_of_reachesEight (reachesEight_powerOfTen ⟨k, hsmall⟩)

/-! ## What they are read as -/

theorem unpack_neg (x : Float) : (-x).toModel.unpack =
    (Float.Model.pack x.toModel.unpack.neg).unpack := rfl

/-- Beyond 53 bits every double is a whole number. -/
theorem Reaches.whole? {x : Float} {power : Nat} (h : Reaches x power) (hpower : 52 ≤ power) :
    ∃ n : Nat, 2 ^ power ≤ n ∧ Decimal.whole? x = some (n : Int) ∧
      Decimal.whole? (-x) = some (-(n : Int)) := by
  obtain ⟨m, e, hpos, hx, hm, hlow, hhigh, hreach⟩ := h
  obtain ⟨k, rfl⟩ := Int.eq_ofNat_of_zero_le (a := e) (by omega)
  have hneg : (-x).toModel.unpack = .finite .negative m k hpos := by
    rw [unpack_neg, hx]
    exact unpack_pack .negative hpos hm hlow hhigh
  refine ⟨m * 2 ^ k, ?_, whole?_of_unpack hx (by omega), whole?_of_unpack hneg (by omega)⟩
  have hlarge : 2 ^ 52 ≤ m := hm ▸ Nat.log2_self_le (Nat.ne_of_gt hpos)
  calc 2 ^ power ≤ 2 ^ (52 + k) := Nat.pow_le_pow_right (by decide) (by omega)
    _ = 2 ^ 52 * 2 ^ k := Nat.pow_add 2 52 k
    _ ≤ m * 2 ^ k := Nat.mul_le_mul_right _ hlarge

/-- A number beyond the upper bound is taken at it. -/
theorem saturate_of_gt {n : Int} (h : maxInt64 < n) : saturate n = .ofInt maxInt64 := by
  have hlow : ¬ n < minInt64 := by
    rw [maxInt64] at h
    rw [minInt64]
    omega
  rw [saturate, if_neg hlow, if_pos h]

theorem saturate_of_le {n : Int} (h : n ≤ minInt64) : saturate n = .ofInt minInt64 := by
  rcases Int.lt_or_eq_of_le h with hlt | rfl
  · rw [saturate, if_pos hlt]
  · rfl

theorem fitsInt64_iff {n : Int} : fitsInt64 n = true ↔ minInt64 ≤ n ∧ n ≤ maxInt64 := by
  simp [fitsInt64]

theorem saturate_of_fits {n : Int} (h : fitsInt64 n = true) : saturate n = .ofInt n := by
  obtain ⟨hlow, hhigh⟩ := fitsInt64_iff.mp h
  rw [saturate, if_neg (Int.not_lt.mpr hlow), if_neg (Int.not_lt.mpr hhigh)]

/-- A number of 64 bits is kept. -/
theorem toInt_saturate_of_fits {n : Int} (h : fitsInt64 n = true) : (saturate n).toInt = n := by
  obtain ⟨hlow, hhigh⟩ := fitsInt64_iff.mp h
  rw [minInt64] at hlow
  rw [maxInt64] at hhigh
  rw [saturate_of_fits h]
  exact Int64.toInt_ofInt_of_le hlow (by omega)

/-- Only the numbers of 64 bits are kept. -/
theorem toInt_saturate_eq_iff {n : Int} : (saturate n).toInt = n ↔ fitsInt64 n = true := by
  refine ⟨fun h => ?_, toInt_saturate_of_fits⟩
  have hlow := Int64.le_toInt (saturate n)
  have hhigh := Int64.toInt_lt (saturate n)
  rw [h] at hlow hhigh
  exact fitsInt64_iff.mpr ⟨hlow, Int.le_of_lt_add_one hhigh⟩

/-- A double beyond 64 bits is read as the same bound as any other number there. -/
theorem Reaches.saturates {x : Float} (h : Reaches x 63) {n : Nat} (hn : maxInt64 < n) :
    (Decimal.whole? x).map saturate = some (saturate (n : Int)) ∧
      (Decimal.whole? (-x)).map saturate = some (saturate (-(n : Int))) := by
  obtain ⟨m, hm, hx, hneg⟩ := @Reaches.whole? x 63 h (by decide)
  rw [maxInt64] at hn
  have hbeyond : maxInt64 < (m : Int) := by rw [maxInt64]; omega
  rw [hx, hneg, Option.map_some, Option.map_some, saturate_of_gt hbeyond,
    saturate_of_gt (by rw [maxInt64]; omega), saturate_of_le (by rw [minInt64]; omega),
    saturate_of_le (by rw [minInt64]; omega)]
  exact ⟨rfl, rfl⟩

end TaskDiagram.Decimal
