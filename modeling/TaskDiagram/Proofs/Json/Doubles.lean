import TaskDiagram.Proofs.Decimal.Interval
import TaskDiagram.Proofs.Decimal.Product
import TaskDiagram.Proofs.Json.Numerals

/-! # The text of a double is read

The text of a finite double is read as the digits and the power of ten it writes, put together in
the arithmetic of doubles. That rounds more than once, so what is read can be the double beside it,
but it never leaves the range of doubles.
-/

namespace TaskDiagram.Json

variable {negative : Bool} {rest : List Char}

/-! ## Parts of a number -/

/-- Digits that begin a number: the first is not a zero, and all of them fit 64 bits. -/
structure LeadingDigits (ds : List Char) : Prop where
  isDigit : ∀ c ∈ ds, c.isDigit = true
  first : ∃ d more, ds = d :: more ∧ d ≠ '0'
  fits : Nat.ofDigitChars 10 ds 0 ≤ Decimal.maxWord64

theorem leadingDigits_toDigits {n : Nat} (hpos : 0 < n) (hn : n ≤ Decimal.maxWord64) :
    LeadingDigits (Nat.toDigits 10 n) :=
  ⟨isDigit_of_mem_toDigits, exists_toDigits hpos, by rwa [Nat.ofDigitChars_ten_toDigits]⟩

/-- Zeros may stand behind, as long as the number fits. -/
theorem LeadingDigits.append_zeros {ds : List Char} (h : LeadingDigits ds) (count : Nat)
    (hfits : 10 ^ count * Nat.ofDigitChars 10 ds 0 ≤ Decimal.maxWord64) :
    LeadingDigits (ds ++ List.replicate count '0') := by
  refine ⟨List.forall_mem_append.mpr ⟨h.isDigit, fun c hc => ?_⟩, ?_, ?_⟩
  · rw [List.eq_of_mem_replicate hc]
    rfl
  · obtain ⟨d, more, rfl, hd⟩ := h.first
    exact ⟨d, _, rfl, hd⟩
  · rwa [Nat.ofDigitChars_append, Nat.ofDigitChars_replicate_zero]

/-- Digits that begin others that begin a number begin one. -/
theorem LeadingDigits.of_append {first more : List Char} (h : LeadingDigits (first ++ more))
    (hne : first ≠ []) : LeadingDigits first := by
  refine ⟨fun c hc => h.isDigit c (List.mem_append_left _ hc), ?_, ?_⟩
  · obtain ⟨d, ds, heq, hd⟩ := h.first
    obtain ⟨c, cs, rfl⟩ := List.exists_cons_of_ne_nil hne
    rw [List.cons_append] at heq
    cases heq
    exact ⟨_, _, rfl, hd⟩
  · have hfits := h.fits
    rw [Nat.ofDigitChars_append] at hfits
    exact (le_ofDigitChars more _).trans hfits

theorem LeadingDigits.readNumber_point {ds : List Char} (h : LeadingDigits ds)
    (negative : Bool) (rest : List Char) :
    readNumber negative (ds ++ '.' :: rest) =
      readPlaces negative (Nat.ofDigitChars 10 ds 0) 0 rest := by
  obtain ⟨d, more, rfl, hd⟩ := h.first
  have hdigit : d.isDigit = true := h.isDigit d List.mem_cons_self
  have haccumulate := @accumulate_digits ('.' :: rest) (by simp) (d :: more) h.isDigit 0 0 h.fits
  rw [List.cons_append] at haccumulate ⊢
  simp [readNumber, hdigit, haccumulate]

theorem LeadingDigits.readNumber_exponent {ds : List Char} (h : LeadingDigits ds)
    (negative : Bool) (rest : List Char) :
    readNumber negative (ds ++ 'e' :: rest) =
      readExponent negative (Nat.ofDigitChars 10 ds 0) 0 rest := by
  obtain ⟨d, more, rfl, hd⟩ := h.first
  have hdigit : d.isDigit = true := h.isDigit d List.mem_cons_self
  have haccumulate := @accumulate_digits ('e' :: rest) (by simp) (d :: more) h.isDigit 0 0 h.fits
  rw [List.cons_append] at haccumulate ⊢
  simp [readNumber, hdigit, haccumulate]

/-- Places behind the point are digits behind others. -/
theorem readPlaces_digits {ds : List Char} {n : Nat} {exponent : Int}
    (hdigits : ∀ c ∈ ds, c.isDigit = true) (hne : ds ≠ [])
    (hfits : Nat.ofDigitChars 10 ds n ≤ Decimal.maxWord64)
    (hrest : ∀ c ∈ rest.head?, c.isDigit = false) :
    readPlaces negative n exponent (ds ++ rest) =
      readScaled negative (Nat.ofDigitChars 10 ds n) (exponent - ds.length) rest := by
  have haccumulate := accumulate_digits hrest hdigits 0 hfits
  have hcount : ds.length ≠ 0 := fun h => hne (List.length_eq_zero_iff.mp h)
  rw [readPlaces, haccumulate]
  cases rest with
  | nil => simp [hne, readScaled]
  | cons c rest => simp [hne, hrest c rfl]

/-- The places behind the digits of a number are further digits. -/
theorem LeadingDigits.readNumber_places {first more : List Char}
    (h : LeadingDigits (first ++ more)) (hfirst : first ≠ []) (hmore : more ≠ [])
    (hrest : ∀ c ∈ rest.head?, c.isDigit = false) :
    readNumber negative (first ++ '.' :: (more ++ rest)) =
      readScaled negative (Nat.ofDigitChars 10 (first ++ more) 0) (-more.length) rest := by
  have hfits := h.fits
  rw [Nat.ofDigitChars_append] at hfits ⊢
  rw [(h.of_append hfirst).readNumber_point, readPlaces_digits
    (fun c hc => h.isDigit c (List.mem_append_right _ hc)) hmore hfits hrest, Int.zero_sub]

theorem readScaled_ended (significand : Nat) (exponent : Int) (hrest : EndsNumber rest) :
    readScaled negative significand exponent rest =
      finishFloat negative significand exponent rest := by
  cases rest with
  | nil => rfl
  | cons c rest =>
      obtain ⟨-, -, he, hE⟩ := endsNumber_cons.mp hrest
      simp [readScaled, he, hE]

/-- Counting on beyond a bound stays at the bound. -/
theorem foldl_capped (cap : Nat) (cs : List Char) (n m : Nat) (h : n = min cap m) :
    cs.foldl (fun n d => min cap (n * 10 + digitValue d)) n =
      min cap (Nat.ofDigitChars 10 cs m) := by
  induction cs generalizing n m with
  | nil => exact h
  | cons c cs ih =>
      rw [List.foldl_cons, Nat.ofDigitChars_cons]
      apply ih
      change _ = min cap (10 * m + digitValue c)
      omega

/-- A run of digits ends where the text does not go on with a digit. -/
theorem takeWhile_digits {ds : List Char} (hdigits : ∀ c ∈ ds, c.isDigit = true)
    (hrest : ∀ c ∈ rest.head?, c.isDigit = false) :
    (ds ++ rest).takeWhile Char.isDigit = ds ∧ (ds ++ rest).dropWhile Char.isDigit = rest := by
  rw [List.takeWhile_append_of_pos hdigits, List.dropWhile_append_of_pos hdigits]
  cases rest with
  | nil => simp
  | cons c rest => simp [hrest c rfl]

/-- An exponent is read with its sign. -/
theorem readExponent_digits (significand : Nat) (exponent e : Int)
    (he : e.natAbs ≤ maxExponent) (hrest : ∀ c ∈ rest.head?, c.isDigit = false) :
    readExponent negative significand exponent
        ((if e < 0 then '-' else '+') :: Nat.toDigits 10 e.natAbs ++ rest) =
      finishFloat negative significand (exponent + e) rest := by
  have hdigits : ∀ c ∈ Nat.toDigits 10 e.natAbs, c.isDigit = true := isDigit_of_mem_toDigits
  have hread := foldl_capped (maxExponent + 1) (Nat.toDigits 10 e.natAbs) 0 0 rfl
  rw [Nat.ofDigitChars_ten_toDigits, Nat.min_eq_right (Nat.le_succ_of_le he)] at hread
  obtain ⟨htake, hdrop⟩ := takeWhile_digits hdigits hrest
  obtain ⟨d, ds, hds⟩ := List.exists_cons_of_ne_nil
    (Nat.toDigits_ne_nil (n := e.natAbs) (b := 10))
  have hfirst : d.isDigit = true := hdigits d (hds ▸ List.mem_cons_self)
  rw [hds] at hread htake hdrop ⊢
  rw [List.cons_append] at htake hdrop
  split
  next hneg =>
    have habs : exponent - (e.natAbs : Int) = exponent + e := by omega
    simp only [readExponent, List.cons_append, hfirst, htake, hdrop, hread, if_true,
      if_neg (Nat.not_lt.mpr he), habs]
  next hpos =>
    have habs : exponent + (e.natAbs : Int) = exponent + e := by omega
    simp only [readExponent, List.cons_append, hfirst, htake, hdrop, hread, if_true,
      if_neg (Nat.not_lt.mpr he), habs, Bool.false_eq_true, if_false]

/-! ## Numerals -/

section Numerals

variable {n : Decimal.Numeral}

/-- In scientific notation the digits and the power of ten are read as they are. -/
theorem readNumber_scientific (hpos : 0 < n.digits) (hfits : n.digits ≤ Decimal.maxWord64)
    (he : n.leading.natAbs ≤ maxExponent) (hrest : EndsNumber rest) :
    readNumber negative (n.scientific ++ rest) =
      finishFloat negative n.digits n.exponent rest := by
  have hleading := leadingDigits_toDigits hpos hfits
  have hvalue : Nat.ofDigitChars 10 n.digitList 0 = n.digits := Nat.ofDigitChars_ten_toDigits
  have hlead : n.leading = n.exponent + n.digitList.length - 1 := rfl
  change LeadingDigits n.digitList at hleading
  unfold Decimal.Numeral.scientific
  dsimp only
  generalize n.digitList = ds at *
  -- A single digit is written without a point, so the exponent follows at once.
  match ds with
  | [] =>
      obtain ⟨_, _, hnil, _⟩ := hleading.first
      cases hnil
  | [d] =>
      have hexponent : 0 + n.leading = n.exponent := by
        rw [hlead]
        simp
      have hread := hleading.readNumber_exponent negative
        ((if n.leading < 0 then '-' else '+') :: Nat.toDigits 10 n.leading.natAbs ++ rest)
      rw [readExponent_digits _ _ _ he hrest.head, hvalue, hexponent] at hread
      exact hread
  | d :: c :: ds =>
      have hexponent : -((c :: ds).length : Int) + n.leading = n.exponent := by
        simp only [hlead, List.length_cons]
        push_cast
        ring
      have hread := @LeadingDigits.readNumber_places negative
        ('e' :: ((if n.leading < 0 then '-' else '+') :: Nat.toDigits 10 n.leading.natAbs ++ rest))
        [d] (c :: ds) hleading (List.cons_ne_nil _ _) (List.cons_ne_nil _ _) (by simp)
      have hscaled := @readExponent_digits negative rest n.digits (-((c :: ds).length : Int))
        n.leading he hrest.head
      rw [hexponent] at hscaled
      rw [List.singleton_append, List.singleton_append, hvalue] at hread
      simp only [List.cons_append, List.append_assoc] at hread ⊢
      rw [hread, ← hscaled]
      rfl

end Numerals

/-! ## Within the range of doubles -/

/-- Digits in front of further places are scaled down, which never fails. -/
theorem exists_scale?_of_neg (significand : Nat) {exponent : Int} (h : exponent < 0) :
    ∃ x, scale? significand exponent = some x := by
  unfold scale?
  dsimp only
  rw [if_neg (Int.not_le.mpr h)]
  exact ⟨_, rfl⟩

theorem le_of_ten_pow_lt {k : Nat} (h : (10 : ℚ) ^ k < 2 ^ 1024) : k ≤ 308 := by
  have hpower : 10 ^ k < 2 ^ 1024 := by exact_mod_cast h
  obtain ⟨bound, hbound, hnext⟩ : ∃ bound, bound = 309 ∧ 2 ^ 1024 < 10 ^ bound :=
    ⟨309, rfl, by decide +kernel⟩
  have hlt := (Nat.pow_lt_pow_iff_right (by decide)).mp (hpower.trans hnext)
  omega

/-- Digits that are scaled up stay in range if the result leaves room for what is rounded up. -/
theorem exists_scale?_of_lt {n : Decimal.Numeral} (hpos : 0 < n.digits) (hwhole : 0 ≤ n.exponent)
    (hbound : n.value * (1 + 1 / 2 ^ 52) ^ 7 < 2 ^ 1024) :
    ∃ x, scale? n.digits n.exponent = some x := by
  obtain ⟨k, hk⟩ := Int.eq_ofNat_of_zero_le hwhole
  have hvalue : n.value = n.digits * 10 ^ k := by rw [Decimal.Numeral.value, hk, zpow_natCast]
  have hone : (1 : ℚ) ≤ n.digits := by exact_mod_cast hpos
  have hten : (1 : ℚ) ≤ 10 ^ k := one_le_pow₀ (by norm_num)
  -- The digits and the power of ten are no larger than their product.
  have hpart : ∀ a : ℚ, 0 ≤ a → a ≤ n.value → a * (1 + 1 / 2 ^ 52) ^ 3 < 2 ^ 1024 := by
    intro a hnonneg hle
    refine (mul_le_mul hle ?_ (by positivity) (hnonneg.trans hle)).trans_lt hbound
    exact pow_le_pow_right₀ (by norm_num) (by decide)
  have hpower := hpart ((1 : Nat) * 10 ^ k) (by positivity) (by
    rw [hvalue, Nat.cast_one]
    exact mul_le_mul_of_nonneg_right hone (by positivity))
  have hdigits := hpart (n.digits * 10 ^ 0) (by positivity) (by
    rw [hvalue, pow_zero]
    exact mul_le_mul_of_nonneg_left hten (Nat.cast_nonneg _))
  have hsmall : k ≤ 308 := by
    refine le_of_ten_pow_lt (lt_of_le_of_lt ?_ hpower)
    rw [Nat.cast_one, one_mul]
    exact le_mul_of_one_le_right (by positivity) (by norm_num)
  have hrounded : (n.digits : ℚ) * 10 ^ 0 * (1 + 1 / 2 ^ 52) ^ 3 *
      ((1 : Nat) * 10 ^ k * (1 + 1 / 2 ^ 52) ^ 3) * (1 + 1 / 2 ^ 52) =
        n.value * (1 + 1 / 2 ^ 52) ^ 7 := by
    rw [hvalue, Nat.cast_one]
    ring
  -- Each factor is rounded up to three times, and their product once more.
  have hproduct := (Decimal.atMost_ofScientific hpos (by decide) hdigits).mul
    (Decimal.atMost_ofScientific (by decide) hsmall hpower) (hrounded ▸ hbound)
  have hfinite : (Float.ofNat n.digits * powerOfTen k).isInf = false := hproduct.not_isInf
  unfold scale?
  dsimp only
  rw [if_pos hwhole, hk, if_pos (by omega), Int.toNat_natCast, hfinite]
  exact ⟨_, rfl⟩

/-- The largest doubles, for which the room is too small. Seven roundings can add `56` quarters of
the last place, less than what `16` doubles take up. -/
def IsTop (b : Decimal.Binary) : Prop := b.exponent = 971 ∧ 2 ^ 53 - 16 ≤ b.significand

/-- The decimals of the largest doubles. Neighbours are `2` apart or closer, and where a multiple
of ten lies near enough, it is written instead. -/
def topDecimals : List Decimal.Numeral :=
  [⟨1797693134862313, 293⟩, ⟨1797693134862314, 293⟩, ⟨1797693134862315, 293⟩] ++
    (List.range 16).map fun i => ⟨17976931348623127 + 2 * i, 292⟩

theorem shortest_mem_topDecimals : ∀ i ∈ List.range 16,
    (Decimal.Rounding.ofBinary ⟨2 ^ 53 - 16 + i, 971⟩).firstHit .toEven 20
      ((Decimal.Rounding.ofBinary ⟨2 ^ 53 - 16 + i, 971⟩).leading 700 309) ∈ topDecimals := by
  decide +kernel

theorem isSome_scale?_topDecimals : ∀ n ∈ topDecimals,
    (scale? (n.trimmed 400).digits (n.trimmed 400).exponent).isSome = true := by
  decide +kernel

theorem exists_scale?_of_isTop {b : Decimal.Binary} (h : b.Finite) (htop : IsTop b) :
    ∃ x, scale? (Decimal.shortest .toEven b).digits (Decimal.shortest .toEven b).exponent =
      some x := by
  obtain ⟨significand, exponent⟩ := b
  obtain ⟨hexponent, hlow⟩ := htop
  dsimp only at hexponent hlow
  subst hexponent
  obtain ⟨i, rfl⟩ := Nat.exists_eq_add_of_le hlow
  have hlt := h.lt
  dsimp only at hlt
  have hi : i ∈ List.range 16 := List.mem_range.mpr (by omega)
  exact Option.isSome_iff_exists.mp
    (isSome_scale?_topDecimals _ (shortest_mem_topDecimals i hi))

/-- Below the largest doubles, the decimal of a double leaves room. -/
theorem room_of_approximates {n : Decimal.Numeral} {b : Decimal.Binary} (h : b.Finite)
    (hn : n.Approximates b) (htop : ¬ IsTop b) : n.value * (1 + 1 / 2 ^ 52) ^ 7 < 2 ^ 1024 := by
  have hhigh := h.high
  have hlt := h.lt
  have hle : n.value ≤ (2 ^ 55 - 66) * 2 ^ (969 : Int) := by
    refine hn.high.trans ?_
    -- With a lower exponent any significand will do; with the highest one it is not among the last.
    rcases Int.lt_or_eq_of_le hhigh with hbelow | heq
    · have hsignificand : (b.significand : ℚ) + 1 ≤ 2 ^ 53 := by exact_mod_cast hlt
      have hpositive : (0 : ℚ) < 2 ^ (968 : Int) := by positivity
      have htwice : (2 : ℚ) ^ (969 : Int) = 2 ^ (968 : Int) * 2 := zpow_add_one₀ (by norm_num) 968
      calc (4 * (b.significand : ℚ) + 2) * 2 ^ (b.exponent - 2)
          ≤ 2 ^ 55 * 2 ^ (968 : Int) :=
            mul_le_mul (by linarith) (zpow_le_zpow_right₀ (by norm_num) (by omega))
              (by positivity) (by norm_num)
        _ ≤ (2 ^ 55 - 66) * 2 ^ (969 : Int) := by
            rw [htwice]
            generalize (2 : ℚ) ^ (968 : Int) = power at *
            linarith only [hpositive]
    · have hlow : b.significand + 17 ≤ 2 ^ 53 := by
        by_contra hmore
        exact htop ⟨heq, by omega⟩
      have hsignificand : (b.significand : ℚ) + 17 ≤ 2 ^ 53 := by exact_mod_cast hlow
      rw [heq]
      exact mul_le_mul_of_nonneg_right (by linarith) (by positivity)
  calc n.value * (1 + 1 / 2 ^ 52) ^ 7
      ≤ (2 ^ 55 - 66) * 2 ^ (969 : Int) * (1 + 1 / 2 ^ 52) ^ 7 :=
        mul_le_mul_of_nonneg_right hle (by positivity)
    _ = (2 ^ 55 - 66) * (1 + 1 / 2 ^ 52) ^ 7 * 2 ^ (969 : Int) := mul_right_comm _ _ _
    _ < 2 ^ 55 * 2 ^ (969 : Int) := mul_lt_mul_of_pos_right (by norm_num) (by positivity)
    _ = 2 ^ 1024 := (pow_add 2 55 969).symm

/-- The decimal of a finite double is read as a double. -/
theorem exists_scale?_shortest {b : Decimal.Binary} (h : b.Finite) :
    ∃ x, scale? (Decimal.shortest .toEven b).digits (Decimal.shortest .toEven b).exponent =
      some x := by
  have hn := h.approximates_shortest .toEven
  by_cases htop : IsTop b
  · exact exists_scale?_of_isTop h htop
  · rcases Int.lt_or_le (Decimal.shortest .toEven b).exponent 0 with hneg | hwhole
    · exact exists_scale?_of_neg _ hneg
    · exact exists_scale?_of_lt hn.digits_pos hwhole (room_of_approximates h hn htop)

/-! ## Texts of doubles -/

/-- Text that is read as a double in front of whatever ends a number. -/
def IsDoubleText (body : List Char) : Prop :=
  ∃ x, ∀ negative rest, EndsNumber rest →
    readNumber negative (body ++ rest) = .ok (signed negative x, rest)

theorem isDoubleText_of_scale? {body : List Char} {significand : Nat} {exponent : Int}
    (hx : ∃ x, scale? significand exponent = some x)
    (h : ∀ negative rest, EndsNumber rest →
      readNumber negative (body ++ rest) = finishFloat negative significand exponent rest) :
    IsDoubleText body := by
  obtain ⟨x, hx⟩ := hx
  refine ⟨x, fun negative rest hrest => ?_⟩
  rw [h negative rest hrest, finishFloat, hx]

/-- Digits with a point among them. -/
theorem isDoubleText_places {first more : List Char} (h : LeadingDigits (first ++ more))
    (hfirst : first ≠ []) (hmore : more ≠ []) : IsDoubleText (first ++ '.' :: more) := by
  have hlength : 0 < more.length := List.length_pos_iff.mpr hmore
  have hneg : -(more.length : Int) < 0 := by omega
  refine isDoubleText_of_scale? (exists_scale?_of_neg (Nat.ofDigitChars 10 (first ++ more) 0) hneg)
    fun negative rest hrest => ?_
  rw [List.append_assoc, List.cons_append, h.readNumber_places hfirst hmore hrest.head,
    readScaled_ended _ _ hrest]

/-- Digits that all stand behind the point. -/
theorem isDoubleText_zeroPoint {ds : List Char} (hdigits : ∀ c ∈ ds, c.isDigit = true)
    (hne : ds ≠ []) (hfits : Nat.ofDigitChars 10 ds 0 ≤ Decimal.maxWord64) :
    IsDoubleText ('0' :: '.' :: ds) := by
  have hlength : 0 < ds.length := List.length_pos_iff.mpr hne
  have hneg : 0 - (ds.length : Int) < 0 := by omega
  refine isDoubleText_of_scale? (exists_scale?_of_neg (Nat.ofDigitChars 10 ds 0) hneg)
    fun negative rest hrest => ?_
  rw [← readScaled_ended _ _ hrest, ← readPlaces_digits hdigits hne hfits hrest.head]
  rfl

section Numerals

variable {n : Decimal.Numeral}

theorem isDoubleText_scientific {b : Decimal.Binary} (hb : b.Finite) :
    IsDoubleText (Decimal.shortest .toEven b).scientific := by
  have hn := hb.approximates_shortest .toEven
  have hlow := hn.le_exponent
  have hhigh := hn.exponent_le hb
  have hdigits : (Decimal.shortest .toEven b).digitList.length ≤ 20 :=
    (Nat.length_toDigits_le_iff (by decide) (by decide)).mpr (hn.digits_le.trans_lt (by decide))
  have hleading : (Decimal.shortest .toEven b).leading.natAbs ≤ maxExponent := by
    rw [Decimal.Numeral.leading, maxExponent]
    omega
  exact isDoubleText_of_scale? (exists_scale?_shortest hb) fun negative rest hrest =>
    readNumber_scientific hn.digits_pos hn.digits_le hleading hrest

/-- A whole number of few digits, zeros behind them counted. -/
theorem isDoubleText_whole (hpos : 0 < n.digits) (hfits : n.digits ≤ Decimal.maxWord64)
    {zeros : Nat} (hcount : zeros + n.digitList.length ≤ 16) :
    IsDoubleText (n.digitList ++ List.replicate zeros '0' ++ ['.', '0']) := by
  have hlength : 0 < n.digitList.length := Nat.length_toDigits_pos
  have hvalue : Nat.ofDigitChars 10 n.digitList 0 = n.digits := Nat.ofDigitChars_ten_toDigits
  have hsmall : n.digits < 10 ^ n.digitList.length :=
    (Nat.length_toDigits_le_iff (by decide) hlength).mp (Nat.le_refl _)
  have hbound : 10 ^ (zeros + 1) * n.digits ≤ Decimal.maxWord64 := by
    calc 10 ^ (zeros + 1) * n.digits ≤ 10 ^ (zeros + 1) * 10 ^ n.digitList.length :=
          Nat.mul_le_mul_left _ hsmall.le
      _ = 10 ^ (zeros + 1 + n.digitList.length) := (pow_add _ _ _).symm
      _ ≤ 10 ^ 17 := Nat.pow_le_pow_right (by decide) (by omega)
      _ ≤ Decimal.maxWord64 := by decide
  -- The zero behind the point is one more digit of the same kind.
  have hmany := (leadingDigits_toDigits hpos hfits).append_zeros (zeros + 1) (hvalue.symm ▸ hbound)
  rw [List.replicate_succ', ← List.append_assoc] at hmany
  apply isDoubleText_places hmany
  · exact List.append_ne_nil_of_left_ne_nil (List.ne_nil_of_length_pos hlength) _
  · exact List.cons_ne_nil _ _

/-- In positional notation a point is always written, and few enough zeros in front of it. -/
theorem isDoubleText_positional (hpos : 0 < n.digits) (hfits : n.digits ≤ Decimal.maxWord64)
    (hlead : n.leading ≤ 15) : IsDoubleText (n.positional true) := by
  have hdigits : LeadingDigits n.digitList := leadingDigits_toDigits hpos hfits
  have hcount : 0 < n.digitList.length := Nat.length_toDigits_pos
  rw [Decimal.Numeral.leading] at hlead
  unfold Decimal.Numeral.positional
  dsimp only
  split
  next hwhole =>
    -- The point stands behind all digits.
    obtain ⟨zeros, hzeros⟩ := Int.eq_ofNat_of_zero_le hwhole
    rw [hzeros] at hlead ⊢
    exact isDoubleText_whole hpos hfits (by omega)
  next hpart =>
    obtain ⟨places, hplaces⟩ := Int.eq_ofNat_of_zero_le
      (Int.neg_nonneg_of_nonpos (Int.le_of_lt (Int.not_le.mp hpart)))
    have hsome : places ≠ 0 := by
      rintro rfl
      omega
    rw [hplaces, Int.toNat_natCast]
    split
    next hless =>
      -- It stands among the digits.
      rw [← List.take_append_drop (n.digitList.length - places) n.digitList] at hdigits
      apply isDoubleText_places hdigits
      · exact List.ne_nil_of_length_pos (by rw [List.length_take]; omega)
      · exact List.ne_nil_of_length_pos (by rw [List.length_drop]; omega)
    next hmore =>
      -- It stands in front of them, with zeros between.
      change IsDoubleText
        ('0' :: '.' :: (List.replicate (places - n.digitList.length) '0' ++ n.digitList))
      apply isDoubleText_zeroPoint
      · refine List.forall_mem_append.mpr ⟨fun c hc => ?_, hdigits.isDigit⟩
        rw [List.eq_of_mem_replicate hc]
        rfl
      · exact List.append_ne_nil_of_right_ne_nil _ (List.ne_nil_of_length_pos hcount)
      · rw [Nat.ofDigitChars_append, Nat.ofDigitChars_replicate_zero]
        exact hdigits.fits

end Numerals

theorem isDoubleText_magnitude {x : Float} (h : x.isFinite = true) :
    ∃ body, IsDoubleText body ∧ (Decimal.Style.document.text x).toList =
      if Decimal.isNegative x then '-' :: body else body := by
  unfold Decimal.Style.text
  rw [Decimal.isNaN_of_isFinite h, Decimal.isInf_of_isFinite h]
  simp only [Bool.false_eq_true, if_false, String.toList_ofList]
  refine ⟨_, ?_, rfl⟩
  split
  next hzero =>
    apply @isDoubleText_zeroPoint ['0']
    · exact List.forall_mem_singleton.mpr rfl
    · exact List.cons_ne_nil _ _
    · exact Nat.zero_le _
  next hzero =>
    have hb := Decimal.Binary.finite_ofFloat h (by simpa using hzero)
    have hn := hb.approximates_shortest .toEven
    split
    next hpositional =>
      obtain ⟨-, hlead⟩ : -5 ≤ (Decimal.shortest .toEven (Decimal.Binary.ofFloat x)).leading ∧
          (Decimal.shortest .toEven (Decimal.Binary.ofFloat x)).leading ≤ 15 := by
        simpa [Decimal.Style.document] using hpositional
      exact isDoubleText_positional hn.digits_pos hn.digits_le hlead
    next => exact isDoubleText_scientific hb

/-- A number begins with a digit. -/
theorem exists_digit_of_readNumber {cs : List Char} {front : Ahead Json}
    (h : readNumber negative cs = .ok front) : ∃ c ds, cs = c :: ds ∧ c.isDigit = true := by
  unfold readNumber at h
  split at h
  next => cases h
  next ds => exact ⟨'0', ds, rfl, rfl⟩
  next c ds _ =>
    split at h
    next => cases h
    next hdigit => exact ⟨c, ds, rfl, by simpa using hdigit⟩

/-- The text of a finite double is that of a number behind its sign. -/
theorem exists_text {x : Float} (h : x.isFinite = true) :
    ∃ c ds, c.isDigit = true ∧ IsDoubleText (c :: ds) ∧
      (Decimal.Style.document.text x).toList =
        if Decimal.isNegative x then '-' :: c :: ds else c :: ds := by
  obtain ⟨body, hbody, htext⟩ := isDoubleText_magnitude h
  obtain ⟨y, hread⟩ := hbody
  obtain ⟨c, ds, heq, hdigit⟩ := exists_digit_of_readNumber (hread false [] endsNumber_nil)
  rw [List.append_nil] at heq
  subst heq
  exact ⟨c, ds, hdigit, ⟨y, hread⟩, htext⟩

end TaskDiagram.Json
