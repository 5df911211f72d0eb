import Mathlib.Tactic.Ring
import Mathlib.Tactic.Linarith
import CommandConsole.Number.Binary32

/-!
# Rounding ratios to patterns

Three facts about rounding carry all that is said about written numbers. A ratio
that a finite pattern denotes exactly is rounded to this pattern. A ratio below
half of the smallest positive number is rounded to zero. And a ratio is rounded
to infinity exactly if it lies no further from 2^128 than from the greatest
finite number, which is half a unit below.
-/

namespace CommandConsole

section WholeNumbers

variable {num den k : Nat}

theorem roundHalfEven_mul (k : Nat) (positive : 0 < den) : roundHalfEven (k * den) den = k := by
  simp [roundHalfEven, Nat.mul_div_cancel k positive, positive]

theorem roundHalfEven_le (below : num < k * den) : roundHalfEven num den ≤ k := by
  have quotient : num / den < k := Nat.div_lt_of_lt_mul (by rwa [Nat.mul_comm])
  simp only [roundHalfEven]
  split
  · omega
  · split <;> omega

theorem roundHalfEven_eq_zero (below : 2 * num < den) : roundHalfEven num den = 0 := by
  have quotient : num / den = 0 := Nat.div_eq_of_lt (by omega)
  have rest : num % den = num := Nat.mod_eq_of_lt (by omega)
  simp [roundHalfEven, quotient, rest, below]

/-- An even number is reached half a unit before it, because that half goes to it. -/
theorem le_roundHalfEven_iff (positive : 0 < den) (even : k % 2 = 0) :
    k ≤ roundHalfEven num den ↔ 2 * k * den ≤ 2 * num + den := by
  have whole : num / den * den + num % den = num := Nat.div_add_mod' num den
  have rest : num % den < den := Nat.mod_lt num positive
  simp only [roundHalfEven]
  generalize num / den = q at whole ⊢
  generalize num % den = r at whole rest ⊢
  subst whole
  rcases Nat.lt_trichotomy (q + 1) k with less | equal | greater
  · have reached : (q + 2) * den ≤ k * den := Nat.mul_le_mul_right den less
    have expanded : (q + 2) * den = q * den + 2 * den := by ring
    have doubled : 2 * k * den = 2 * (k * den) := by ring
    constructor
    · intro above
      split at above
      · omega
      · split at above <;> omega
    · intro above
      omega
  · subst equal
    have expanded : 2 * (q + 1) * den = 2 * (q * den) + 2 * den := by ring
    rw [expanded]
    split
    · omega
    · split <;> omega
  · have reached : k * den ≤ q * den := Nat.mul_le_mul_right den (by omega)
    have doubled : 2 * k * den = 2 * (k * den) := by ring
    constructor
    · intro _
      omega
    · intro _
      split
      · omega
      · split <;> omega

end WholeNumbers

namespace Binary32

theorem unitsPerOne_eq : unitsPerOne = 2 ^ 149 := rfl

/-- Half a unit below 2^128, where rounding to infinity begins. -/
def overflowBound : Nat := 2 ^ 128 - 2 ^ 103

section Patterns

variable {p : Nat}

/-- Small patterns and those of the next exponent count units. -/
theorem units_of_lt (small : p < 2 * exponentStep) : units p = p := by
  have exponent : p / exponentStep - 1 = 0 := by
    have : p / exponentStep < 2 := Nat.div_lt_of_lt_mul (by rwa [Nat.mul_comm])
    omega
  have lead : significand p = p := by
    by_cases subnormal : p < exponentStep
    · rw [significand, if_pos subnormal]
    · have rest : p % exponentStep = p - exponentStep := by
        rw [Nat.mod_eq_sub_mod (by omega), Nat.mod_eq_of_lt (by omega)]
      rw [significand, if_neg subnormal, rest]
      omega
  rw [units, exponent, lead]
  exact Nat.mul_one p

theorem units_of_le (great : 2 * exponentStep ≤ p) :
    units p = (exponentStep + p % exponentStep) * 2 ^ (p / exponentStep - 1) := by
  have normal : ¬ p < exponentStep := by omega
  rw [units, significand, if_neg normal]
  rfl

theorem log2_units (great : 2 * exponentStep ≤ p) :
    (units p).log2 = 23 + (p / exponentStep - 1) := by
  have step : exponentStep = 2 ^ 23 := rfl
  have rest : p % exponentStep < exponentStep := Nat.mod_lt p (by decide)
  have lower : 2 ^ (23 + (p / exponentStep - 1)) ≤ units p := by
    rw [units_of_le great, pow_add]
    exact Nat.mul_le_mul_right _ (by omega)
  have upper : units p < 2 ^ (23 + (p / exponentStep - 1) + 1) := by
    rw [units_of_le great, add_right_comm, pow_add]
    exact Nat.mul_lt_mul_of_pos_right (by omega) (Nat.two_pow_pos _)
  have present := Nat.two_pow_pos (23 + (p / exponentStep - 1))
  exact (Nat.log2_eq_iff (by omega)).mpr ⟨lower, upper⟩

end Patterns

section Ratios

variable {num den p : Nat}

/-- A ratio that a finite pattern denotes exactly is rounded to it. -/
theorem patternOfRatio_of_exact (finite : p < infinityPattern) (positive : 0 < den)
    (exact : num * unitsPerOne = units p * den) : patternOfRatio num den = p := by
  have quotient : units p * den / den = units p := Nat.mul_div_cancel _ positive
  simp only [patternOfRatio, exact, quotient]
  rcases Nat.lt_or_ge p (2 * exponentStep) with small | great
  · have shift : (units p).log2 - 23 = 0 := by
      have : (units p).log2 < 24 := by
        rw [units_of_lt small]
        by_cases zero : p = 0
        · subst zero
          decide
        · exact (Nat.log2_lt zero).mpr small
      omega
    rw [shift, show den * Nat.pow 2 0 = den from Nat.mul_one den, roundHalfEven_mul _ positive,
      units_of_lt small, Nat.zero_mul, Nat.zero_add]
    exact Nat.min_eq_right finite.le
  · have shift : (units p).log2 - 23 = p / exponentStep - 1 := by
      rw [log2_units great]
      omega
    have above : 2 ≤ p / exponentStep := (Nat.le_div_iff_mul_le (by decide)).mpr great
    have whole : p / exponentStep * exponentStep + p % exponentStep = p :=
      Nat.div_add_mod' p exponentStep
    rw [shift, units_of_le great]
    obtain ⟨e, exponent⟩ := Nat.exists_eq_add_of_le' (Nat.le_of_succ_le above)
    rw [exponent, Nat.add_mul, Nat.one_mul] at whole
    rw [exponent, Nat.add_sub_cancel]
    have scale : 0 < den * Nat.pow 2 e := Nat.mul_pos positive (Nat.two_pow_pos e)
    have scaled : (exponentStep + p % exponentStep) * 2 ^ e * den =
        (exponentStep + p % exponentStep) * (den * Nat.pow 2 e) := by
      rw [Nat.mul_assoc, Nat.mul_comm (2 ^ e)]
      rfl
    rw [scaled, roundHalfEven_mul _ scale, ← Nat.add_assoc, whole]
    exact Nat.min_eq_right finite.le

/-- What is below half of the smallest positive number is rounded to zero. -/
theorem patternOfRatio_eq_zero (below : 2 * (num * unitsPerOne) < den) :
    patternOfRatio num den = 0 := by
  have quotient : num * unitsPerOne / den = 0 := Nat.div_eq_of_lt (by omega)
  simp only [patternOfRatio, quotient]
  rw [show den * Nat.pow 2 (Nat.log2 0 - 23) = den from Nat.mul_one den,
    roundHalfEven_eq_zero below]
  rfl

/-- The significand of a ratio has at most 24 binary digits, or is 2^24. -/
theorem roundHalfEven_shifted_le (num : Nat) (positive : 0 < den) :
    roundHalfEven num (den * 2 ^ ((num / den).log2 - 23)) ≤ 2 ^ 24 := by
  apply roundHalfEven_le
  have digits : num / den < 2 ^ (24 + ((num / den).log2 - 23)) :=
    Nat.lt_log2_self.trans_le (Nat.pow_le_pow_right (by decide) (by omega))
  rw [Nat.div_lt_iff_lt_mul positive, pow_add, Nat.mul_assoc] at digits
  rwa [Nat.mul_comm den]

/-- The significand of a ratio that is not small has 24 binary digits. -/
theorem le_roundHalfEven_shifted (num : Nat) (positive : 0 < den)
    (great : 23 ≤ (num / den).log2) :
    2 ^ 23 ≤ roundHalfEven num (den * 2 ^ ((num / den).log2 - 23)) := by
  have present : num / den ≠ 0 := by
    intro zero
    rw [zero] at great
    exact absurd great (by decide)
  have digits : 2 ^ (23 + ((num / den).log2 - 23)) ≤ num / den := by
    rw [Nat.add_sub_cancel' great]
    exact Nat.log2_self_le present
  rw [Nat.le_div_iff_mul_le positive, pow_add, Nat.mul_assoc, Nat.mul_comm _ den] at digits
  rw [le_roundHalfEven_iff (Nat.mul_pos positive (Nat.two_pow_pos _)) (by decide), Nat.mul_assoc]
  omega

theorem le_log2_div {n : Nat} (positive : 0 < den) (lower : 2 ^ n * den ≤ num) :
    n ≤ (num / den).log2 := by
  rw [← Nat.le_div_iff_mul_le positive] at lower
  have present := Nat.two_pow_pos n
  exact (Nat.le_log2 (by omega)).mpr lower

theorem log2_div_le {n : Nat} (positive : 0 < den) (upper : num < 2 ^ (n + 1) * den) :
    (num / den).log2 ≤ n := by
  rw [← Nat.div_lt_iff_lt_mul positive] at upper
  by_cases zero : num / den = 0
  · rw [zero]
    exact Nat.zero_le n
  · exact Nat.le_of_lt_succ ((Nat.log2_lt zero).mpr upper)

theorem pow_add_mul (n den : Nat) : 2 ^ (n + 149) * den = 2 ^ n * den * unitsPerOne := by
  rw [unitsPerOne_eq, pow_add]
  ring

/-- In the highest binade the significand is rounded up to 2^24 from the bound on. -/
theorem le_roundHalfEven_iff_overflowBound (num : Nat) (positive : 0 < den) :
    2 ^ 24 ≤ roundHalfEven (num * unitsPerOne) (den * 2 ^ 253) ↔
      overflowBound * den ≤ num := by
  have scale : 0 < 2 * unitsPerOne := Nat.mul_pos (by decide) (Nat.two_pow_pos 149)
  have bound : 2 * 2 ^ 24 * 2 ^ 253 = overflowBound * (2 * unitsPerOne) + 2 ^ 253 := by decide
  have left : 2 * 2 ^ 24 * (den * 2 ^ 253) =
      overflowBound * den * (2 * unitsPerOne) + den * 2 ^ 253 := by
    calc 2 * 2 ^ 24 * (den * 2 ^ 253) = den * (2 * 2 ^ 24 * 2 ^ 253) := by ring
      _ = overflowBound * den * (2 * unitsPerOne) + den * 2 ^ 253 := by
        rw [bound]
        ring
  have right : 2 * (num * unitsPerOne) = num * (2 * unitsPerOne) := by ring
  rw [le_roundHalfEven_iff (Nat.mul_pos positive (Nat.two_pow_pos _)) (by decide), left, right,
    Nat.add_le_add_iff_right]
  exact Nat.mul_le_mul_right_iff scale

/-- Rounding leads to infinity from the bound on. -/
theorem patternOfRatio_lt_iff (positive : 0 < den) :
    patternOfRatio num den < infinityPattern ↔ num < overflowBound * den := by
  have scale : 0 < unitsPerOne := Nat.two_pow_pos 149
  have significant := roundHalfEven_shifted_le (num * unitsPerOne) positive
  have normal := le_roundHalfEven_shifted (num * unitsPerOne) positive
  have step : exponentStep = 8388608 := rfl
  have infinite : infinityPattern = 255 * 8388608 := rfl
  have pattern : patternOfRatio num den < infinityPattern ↔
      ((num * unitsPerOne / den).log2 - 23) * 8388608 +
        roundHalfEven (num * unitsPerOne)
          (den * 2 ^ ((num * unitsPerOne / den).log2 - 23)) < 255 * 8388608 := by
    rw [← infinite, ← step]
    simp only [patternOfRatio, lt_irrefl, min_lt_iff, false_or]
    rfl
  rw [pattern]
  -- The exponent decides, except in the highest binade, where the significand may still carry.
  rcases Nat.lt_or_ge num (2 ^ 127 * den) with low | high
  · have exponent : (num * unitsPerOne / den).log2 ≤ 275 := by
      apply log2_div_le positive
      rw [show 275 + 1 = 127 + 149 from rfl, pow_add_mul]
      exact Nat.mul_lt_mul_of_pos_right low scale
    have below : 2 ^ 127 * den ≤ overflowBound * den := Nat.mul_le_mul_right den (by decide)
    omega
  · have reached : 127 + 149 ≤ (num * unitsPerOne / den).log2 := by
      apply le_log2_div positive
      rw [pow_add_mul]
      exact Nat.mul_le_mul_right _ high
    rcases Nat.lt_or_ge num (2 ^ 128 * den) with inside | beyond
    · have within : (num * unitsPerOne / den).log2 ≤ 276 := by
        apply log2_div_le positive
        rw [show 276 + 1 = 128 + 149 from rfl, pow_add_mul]
        exact Nat.mul_lt_mul_of_pos_right inside scale
      have exponent : (num * unitsPerOne / den).log2 - 23 = 253 := by omega
      have carries := le_roundHalfEven_iff_overflowBound num positive
      rw [exponent]
      omega
    · have exponent : 128 + 149 ≤ (num * unitsPerOne / den).log2 := by
        apply le_log2_div positive
        rw [pow_add_mul]
        exact Nat.mul_le_mul_right _ beyond
      have above : overflowBound * den ≤ 2 ^ 128 * den := Nat.mul_le_mul_right den (by decide)
      have carried := normal (by omega)
      omega

end Ratios

section Signs

variable {negative : Bool} {p num den : Nat} {x : Binary32}

theorem toNat_ofPattern (small : p < signBit) :
    (ofPattern negative p).bits.toNat = if negative then signBit + p else p := by
  simp only [signBit] at small
  cases negative <;> simp [ofPattern, signBit] <;> omega

theorem pattern_ofPattern (small : p < signBit) : (ofPattern negative p).pattern = p := by
  rw [pattern, toNat_ofPattern small]
  cases negative
  · exact Nat.mod_eq_of_lt small
  · rw [if_pos rfl, Nat.add_mod_left]
    exact Nat.mod_eq_of_lt small

/-- A number is its sign and its magnitude pattern. -/
theorem ofPattern_pattern (x : Binary32) : ofPattern x.isNegative x.pattern = x := by
  have range : x.bits.toNat < 2 * signBit := x.bits.toNat_lt
  have small : x.pattern < signBit := Nat.mod_lt _ (by decide)
  have same : (ofPattern x.isNegative x.pattern).bits.toNat = x.bits.toNat := by
    rw [toNat_ofPattern small, isNegative, pattern]
    by_cases marked : signBit ≤ x.bits.toNat
    · rw [decide_eq_true marked, if_pos rfl, Nat.mod_eq_sub_mod marked,
        Nat.mod_eq_of_lt (by omega)]
      omega
    · rw [decide_eq_false marked, if_neg (by decide), Nat.mod_eq_of_lt (by omega)]
  exact congrArg Binary32.mk (UInt32.toNat_inj.mp same)

theorem patternOfRatio_le (num den : Nat) : patternOfRatio num den ≤ infinityPattern :=
  Nat.min_le_left _ _

theorem isFinite_ofRatio_iff (positive : 0 < den) :
    (ofRatio negative num den).isFinite = true ↔ num < overflowBound * den := by
  have small : patternOfRatio num den < signBit :=
    (patternOfRatio_le num den).trans_lt (by decide)
  rw [← patternOfRatio_lt_iff positive, isFinite, decide_eq_true_eq, ofRatio,
    pattern_ofPattern small]

end Signs

end Binary32

end CommandConsole
