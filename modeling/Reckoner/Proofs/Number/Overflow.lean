import Mathlib.Algebra.Order.Field.Power
import Mathlib.Data.Rat.Cast.Order
import Mathlib.Tactic.Positivity
import Mathlib.Tactic.Ring
import Reckoner.Proofs.Database.Literal

/-!
# Where rounding ends in infinity

A ratio is rounded to a significand of 53 bits and a power of two. It becomes infinite exactly when
it reaches `overflow`, which is half way between the largest finite number and the power of two
above it: the half goes to the even word, and that is the word of infinity. A decimal is a ratio
with a power of ten below, and so becomes infinite at the same place.
-/

namespace Reckoner.Binary64

/-- The power of two that is half of the step between the largest finite numbers. -/
def halfScale : Nat := 970

/-- The least number that is rounded to infinity: half a step above the largest finite number,
`(2 ^ 53 - 1) * 2 ^ 971`, and half a step below `2 ^ 1024`. -/
def overflow : Nat := (2 ^ 54 - 1) * 2 ^ halfScale

theorem overflow_pos : 0 < overflow := Nat.mul_pos (by decide) (Nat.two_pow_pos _)

/-! ## Rounding a quotient -/

section roundQuotient

variable {n d k : Nat}

/-- A quotient below a number is rounded to no more than this number. -/
theorem roundQuotient_le (h : n < k * d) : roundQuotient n d ≤ k := by
  have hquotient : n / d < k := Nat.div_lt_of_lt_mul (by rwa [Nat.mul_comm])
  unfold roundQuotient
  dsimp only
  split_ifs <;> omega

/-- A quotient from a number up is rounded to no less than this number. -/
theorem le_roundQuotient (hd : 0 < d) (h : k * d ≤ n) : k ≤ roundQuotient n d := by
  have hquotient : k ≤ n / d := (Nat.le_div_iff_mul_le hd).mpr h
  unfold roundQuotient
  dsimp only
  split_ifs <;> omega

/-- An odd number is passed from the half above it up, since the half goes to the even
neighbour. -/
theorem lt_roundQuotient_iff (hd : 0 < d) (hk : k % 2 = 1) :
    k < roundQuotient n d ↔ (2 * k + 1) * d ≤ 2 * n := by
  have hn := Nat.div_add_mod n d
  have hrest := Nat.mod_lt n hd
  obtain hlow | heq | hhigh := Nat.lt_trichotomy (n / d) k
  · have hle : roundQuotient n d ≤ k := roundQuotient_le ((Nat.div_lt_iff_lt_mul hd).mp hlow)
    have hlt : n < k * d := (Nat.div_lt_iff_lt_mul hd).mp hlow
    constructor
    · intro h
      omega
    · intro h
      rw [Nat.add_mul, Nat.mul_assoc] at h
      omega
  · subst heq
    have htwice : (2 * (n / d) + 1) * d ≤ 2 * n ↔ d ≤ 2 * (n % d) := by
      rw [Nat.add_mul, Nat.mul_assoc, Nat.mul_comm (n / d) d]
      omega
    rw [htwice]
    unfold roundQuotient
    dsimp only
    split_ifs with hup
    · simp only [Bool.or_eq_true, Bool.and_eq_true, decide_eq_true_eq, beq_iff_eq] at hup
      omega
    · simp only [Bool.or_eq_true, Bool.and_eq_true, decide_eq_true_eq, beq_iff_eq] at hup
      omega
  · have hle : (k + 1) * d ≤ n := (Nat.le_div_iff_mul_le hd).mp hhigh
    have hlt : k + 1 ≤ roundQuotient n d := le_roundQuotient hd hle
    constructor
    · intro _
      rw [Nat.add_mul] at hle ⊢
      rw [Nat.mul_assoc]
      omega
    · intro _
      exact hlt

end roundQuotient

/-! ## The power of two -/

section scale

variable {n d : Nat}

/-- A shift is a multiplication. -/
theorem natCast_shiftLeft (m k : Nat) : ((m <<< k : Nat) : ℚ) = m * 2 ^ k := by
  rw [Nat.shiftLeft_eq]
  push_cast
  rfl

/-- A multiple of one number by a power of two is compared with another number, by a shift of the
one or of the other. -/
theorem shift_le_iff (m n : Nat) (e : Int) :
    (if 0 ≤ e then decide ((m <<< e.toNat) * hiddenBit ≤ n)
      else decide (m * hiddenBit ≤ n <<< (-e).toNat)) = true ↔
      (m : ℚ) * 2 ^ 52 * 2 ^ e ≤ n := by
  have hbit : (hiddenBit : ℚ) = 2 ^ 52 := by norm_num [hiddenBit]
  split_ifs with he
  · obtain ⟨k, rfl⟩ := Int.eq_ofNat_of_zero_le he
    rw [decide_eq_true_iff, Int.toNat_natCast, zpow_natCast,
      ← Nat.cast_le (α := ℚ), Nat.cast_mul, natCast_shiftLeft, hbit, mul_right_comm]
  · obtain ⟨k, hk⟩ := Int.eq_ofNat_of_zero_le (a := -e) (by omega)
    obtain rfl : e = -(k : Int) := by omega
    rw [decide_eq_true_iff, neg_neg, Int.toNat_natCast, zpow_neg, zpow_natCast,
      ← div_eq_mul_inv, div_le_iff₀ (by positivity), ← Nat.cast_le (α := ℚ), Nat.cast_mul,
      natCast_shiftLeft, hbit]

/-- The bounds of a positive number by powers of two, as rationals. -/
theorem log2_bounds (hn : n ≠ 0) :
    (2 : ℚ) ^ (n.log2 : Int) ≤ n ∧ (n : ℚ) < 2 ^ ((n.log2 : Int) + 1) := by
  have hlow := Nat.log2_self_le hn
  have hhigh : n < 2 ^ (n.log2 + 1) := Nat.lt_log2_self
  constructor
  · rw [zpow_natCast]
    exact_mod_cast hlow
  · rw [← Nat.cast_succ, zpow_natCast]
    exact_mod_cast hhigh

/-- What `scale` gives: the quotient has no more than 53 bits, and no fewer unless the number is
subnormal. -/
theorem scale_spec (hn : n ≠ 0) (hd : d ≠ 0) :
    (n : ℚ) < d * 2 ^ 53 * 2 ^ scale n d ∧
      (-1074 < scale n d → (d : ℚ) * 2 ^ 52 * 2 ^ scale n d ≤ n) := by
  obtain ⟨hnlow, hnhigh⟩ := log2_bounds hn
  obtain ⟨hdlow, hdhigh⟩ := log2_bounds hd
  have htwo : (2 : ℚ) ≠ 0 := two_ne_zero
  unfold scale
  simp only [shift_le_iff]
  generalize hguess : (n.log2 : Int) - (d.log2 : Int) - 52 = guess
  -- Without the bound for subnormal numbers.
  obtain ⟨free, hfree, hbelow, habove⟩ : ∃ free : Int,
      free = (if (d : ℚ) * 2 ^ 52 * 2 ^ guess ≤ n then guess else guess - 1) ∧
        (n : ℚ) < d * 2 ^ 53 * 2 ^ free ∧ (d : ℚ) * 2 ^ 52 * 2 ^ free ≤ n := by
    refine ⟨_, rfl, ?_⟩
    split_ifs with hlarge
    · refine ⟨hnhigh.trans_le ?_, hlarge⟩
      calc (2 : ℚ) ^ ((n.log2 : Int) + 1) = 2 ^ (d.log2 : Int) * 2 ^ 53 * 2 ^ guess := by
            rw [← zpow_natCast (2 : ℚ) 53, ← zpow_add₀ htwo, ← zpow_add₀ htwo]
            congr 1
            omega
        _ ≤ d * 2 ^ 53 * 2 ^ guess := by gcongr
    · constructor
      · calc (n : ℚ) < d * 2 ^ 52 * 2 ^ guess := not_le.mp hlarge
          _ = d * 2 ^ 53 * 2 ^ (guess - 1) := by rw [zpow_sub_one₀ htwo]; ring
      · refine le_trans ?_ hnlow
        calc (d : ℚ) * 2 ^ 52 * 2 ^ (guess - 1)
            ≤ 2 ^ ((d.log2 : Int) + 1) * 2 ^ 52 * 2 ^ (guess - 1) := by gcongr
          _ = 2 ^ (n.log2 : Int) := by
            rw [← zpow_natCast (2 : ℚ) 52, ← zpow_add₀ htwo, ← zpow_add₀ htwo]
            congr 1
            omega
  rw [← hfree]
  refine ⟨hbelow.trans_le ?_, fun hnormal => ?_⟩
  · gcongr
    · exact one_le_two
    · exact le_max_left free (-1074)
  · rwa [max_eq_left (by omega)]

/-- A scale that is not negative, as a shift of the denominator. -/
theorem scale_spec_of_nonneg (hn : n ≠ 0) (hd : d ≠ 0) {k : Nat} (hk : scale n d = k) :
    n < 2 ^ 53 * (d * 2 ^ k) ∧ 2 ^ 52 * (d * 2 ^ k) ≤ n := by
  obtain ⟨hhigh, hlow⟩ := scale_spec hn hd
  have hlow := hlow (by omega)
  rw [hk, zpow_natCast, mul_right_comm, mul_comm] at hhigh hlow
  exact ⟨by exact_mod_cast hhigh, by exact_mod_cast hlow⟩

/-- A negative scale, as a shift of the numerator. -/
theorem scale_spec_of_neg (hn : n ≠ 0) (hd : d ≠ 0) {k : Nat} (hk : scale n d = -k) :
    n * 2 ^ k < 2 ^ 53 * d := by
  obtain ⟨hhigh, -⟩ := scale_spec hn hd
  rw [hk, zpow_neg, zpow_natCast, ← div_eq_mul_inv, lt_div_iff₀ (by positivity),
    mul_comm (d : ℚ)] at hhigh
  exact_mod_cast hhigh

end scale

/-! ## Ratios -/

/-- A magnitude is finite exactly below infinity. -/
theorem isFinite_ofMagnitude {magnitude : Nat} (h : magnitude ≤ infinityMagnitude) :
    (ofMagnitude false magnitude).isFinite = true ↔ magnitude < infinityMagnitude := by
  unfold isFinite exponentField
  rw [toNat_ofMagnitude h, bne_iff_ne]
  unfold infinityMagnitude hiddenBit at h ⊢
  omega

/-- The word of a number whose scale is not negative. -/
theorem word_lt_iff {n d k : Nat} (hd : 0 < d) (hhigh : n < 2 ^ 53 * (d * 2 ^ k))
    (hlow : 2 ^ 52 * (d * 2 ^ k) ≤ n) :
    (k + 1074) * hiddenBit + roundQuotient n (d * 2 ^ k) < infinityMagnitude ↔
      n < overflow * d := by
  have hpos : 0 < d * 2 ^ k := Nat.mul_pos hd (Nat.two_pow_pos k)
  have hmost := roundQuotient_le hhigh
  have hleast := le_roundQuotient hpos hlow
  unfold infinityMagnitude hiddenBit
  obtain hsmall | rfl | hlarge := Nat.lt_trichotomy k (halfScale + 1)
  · have hn : n < overflow * d := by
      calc n < 2 ^ 53 * (d * 2 ^ k) := hhigh
        _ ≤ 2 ^ 53 * (d * 2 ^ halfScale) := by
          gcongr
          · decide
          · exact Nat.le_of_lt_succ hsmall
        _ = 2 ^ 53 * 2 ^ halfScale * d := by rw [Nat.mul_comm d, Nat.mul_assoc]
        _ ≤ overflow * d := by
          unfold overflow
          gcongr
          decide
    exact iff_of_true (by unfold halfScale at hsmall; omega) hn
  · -- The largest significand stays below infinity, unless it is rounded to the next power of two.
    have hround := @lt_roundQuotient_iff n (d * 2 ^ (halfScale + 1)) (2 ^ 53 - 1) hpos (by decide)
    have hhalf : (2 * (2 ^ 53 - 1) + 1) * (d * 2 ^ (halfScale + 1)) = 2 * (overflow * d) := by
      unfold overflow
      ring
    rw [hhalf] at hround
    rw [show halfScale + 1 + 1074 = 2045 from rfl]
    generalize overflow * d = limit at hround ⊢
    generalize roundQuotient n (d * 2 ^ (halfScale + 1)) = m at hround hmost ⊢
    clear hhigh hlow hleast hpos hhalf
    omega
  · have hn : overflow * d ≤ n := by
      calc overflow * d ≤ 2 ^ 54 * 2 ^ halfScale * d := by
            unfold overflow
            gcongr
            decide
        _ = 2 ^ 52 * (d * 2 ^ (halfScale + 2)) := by ring
        _ ≤ 2 ^ 52 * (d * 2 ^ k) := by
          gcongr
          · decide
          · exact hlarge
        _ ≤ n := hlow
    exact iff_of_false (by unfold halfScale at hlarge; omega) (Nat.not_lt.mpr hn)

/-- **A ratio is finite exactly below `overflow`.** -/
theorem isFinite_ofRatio {n d : Nat} (hd : d ≠ 0) :
    (ofRatio false n d).isFinite = true ↔ n < overflow * d := by
  have hpos : 0 < d := Nat.pos_of_ne_zero hd
  by_cases hn : n = 0
  · subst hn
    have hzero : (ofMagnitude false 0).isFinite = true := by decide
    unfold ofRatio
    rw [if_pos rfl]
    exact iff_of_true hzero (Nat.mul_pos overflow_pos hpos)
  unfold ofRatio
  rw [if_neg hn, isFinite_ofMagnitude (Nat.min_le_right ..)]
  have hmin : ∀ word : Nat, min word infinityMagnitude < infinityMagnitude ↔
      word < infinityMagnitude := fun word => by omega
  rw [hmin]
  by_cases hscale : 0 ≤ scale n d
  · obtain ⟨k, hk⟩ := Int.eq_ofNat_of_zero_le hscale
    obtain ⟨hhigh, hlow⟩ := scale_spec_of_nonneg hn hd hk
    have hword : (scale n d + 1074).toNat = k + 1074 := by omega
    rw [if_pos hscale, hword, hk, Int.toNat_natCast, Nat.shiftLeft_eq]
    exact word_lt_iff hpos hhigh hlow
  · obtain ⟨k, hk⟩ := Int.eq_ofNat_of_zero_le (a := -scale n d) (by omega)
    have hhigh := scale_spec_of_neg hn hd (k := k) (by omega)
    have hmost := roundQuotient_le hhigh
    rw [if_neg hscale, hk, Int.toNat_natCast, Nat.shiftLeft_eq]
    have hword : (scale n d + 1074).toNat < 1074 := by omega
    refine iff_of_true (by unfold infinityMagnitude hiddenBit; omega) ?_
    calc n ≤ n * 2 ^ k := Nat.le_mul_of_pos_right n (Nat.two_pow_pos k)
      _ < 2 ^ 53 * d := hhigh
      _ ≤ overflow * d := by
        unfold overflow
        gcongr
        exact Nat.le_trans (by decide) (Nat.le_mul_of_pos_right _ (Nat.two_pow_pos _))

/-! ## Decimals -/

/-- A positive number is bounded by powers of ten, by how many digits it has. -/
theorem decimalLength_bounds {n : Nat} (hn : n ≠ 0) :
    10 ^ (decimalLength n - 1) ≤ n ∧ n < 10 ^ decimalLength n ∧ 0 < decimalLength n := by
  have hlength : decimalLength n = (Nat.toDigits 10 n).length := if_neg hn
  have hpos : 0 < decimalLength n := hlength ▸ Nat.length_toDigits_pos
  have hhigh := (Nat.length_toDigits_le_iff (by decide) hpos).mp (Nat.le_of_eq hlength.symm)
  refine ⟨?_, hhigh, hpos⟩
  by_contra hlow
  obtain hone | hmore := Nat.eq_or_lt_of_le (Nat.succ_le_of_lt hpos)
  · rw [← hone, Nat.succ_sub_one, Nat.pow_zero] at hlow
    omega
  · have hle := (Nat.length_toDigits_le_iff (b := 10) (by decide) (by omega)).mpr
      (Nat.lt_of_not_le hlow)
    omega

/-- From `10 ^ 309` up there is nothing finite. -/
theorem overflow_le_ten_pow : overflow ≤ 10 ^ 309 := by
  decide +kernel

/-- **A decimal is finite exactly below `overflow`.** -/
theorem isFinite_ofDecimal (digits places : Nat) :
    (ofDecimal false digits (-places)).isFinite = true ↔ digits < overflow * 10 ^ places := by
  have hten : 0 < 10 ^ places := Nat.pow_pos (by decide)
  unfold ofDecimal
  dsimp only
  split_ifs with hsmall hlarge hpower
  · have hzero : (ofMagnitude false 0).isFinite = true := by decide
    refine iff_of_true hzero ?_
    by_cases hdigits : digits = 0
    · rw [hdigits]
      exact Nat.mul_pos overflow_pos hten
    · have hlength : decimalLength digits ≤ places := by
        have hpower := hsmall.resolve_left hdigits
        omega
      calc digits < 10 ^ decimalLength digits := (decimalLength_bounds hdigits).2.1
        _ ≤ 10 ^ places := Nat.pow_le_pow_right (by decide) hlength
        _ ≤ overflow * 10 ^ places := Nat.le_mul_of_pos_left _ overflow_pos
  · have hinfinite : ¬(ofMagnitude false infinityMagnitude).isFinite = true := by decide
    refine iff_of_false hinfinite (Nat.not_lt.mpr ?_)
    have hdigits : digits ≠ 0 := fun h => hsmall (Or.inl h)
    calc overflow * 10 ^ places ≤ 10 ^ 309 * 10 ^ places :=
          Nat.mul_le_mul_right _ overflow_le_ten_pow
      _ = 10 ^ (309 + places) := by rw [Nat.pow_add]
      _ ≤ 10 ^ (decimalLength digits - 1) := Nat.pow_le_pow_right (by decide) (by omega)
      _ ≤ digits := (decimalLength_bounds hdigits).1
  · obtain rfl : places = 0 := by omega
    rw [isFinite_ofRatio (by decide)]
    simp
  · rw [neg_neg, Int.toNat_natCast]
    exact isFinite_ofRatio (Nat.ne_of_gt hten)

/-- The largest integer that is finite, and the next one. -/
example : (ofDecimal false (overflow - 1) 0).isFinite = true ∧
    ofDecimal false overflow 0 = infinity := by decide +kernel

end Reckoner.Binary64
