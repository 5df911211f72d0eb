import Mathlib.Data.List.TakeWhile
import Mathlib.Data.Rat.Cast.Order
import Mathlib.Tactic.FieldSimp
import Mathlib.Tactic.Positivity
import CommandConsole.Number.Decimal
import CommandConsole.Proofs.Literal.Grammar
import CommandConsole.Proofs.Number.Rounding

/-!
# Numbers as they are written

A written number is a sign, digits, and perhaps a point with more digits. It
denotes a rational number by the places of its digits. Reading it never fails:
it gives the rational number rounded to single precision, which is finite
exactly below the overflow bound.
-/

namespace CommandConsole

open Text

/-- A minus sign or nothing. -/
def signText (negative : Bool) : List Char := if negative then ['-'] else []

/-- A point with digits, or nothing if there are none. -/
def fractionText : List Char → List Char
  | [] => []
  | c :: r => '.' :: c :: r

/-- A number with the given digits before and behind its point. -/
def numberText (negative : Bool) (whole fraction : List Char) : List Char :=
  signText negative ++ (whole ++ fractionText fraction)

/-- The value of digits with an optional point, each digit by its place. -/
def placeValue (t : List Char) : ℚ :=
  let fraction := (t.dropWhile Char.isDigit).tail
  natOfDigits (t.takeWhile Char.isDigit) + natOfDigits fraction / 10 ^ fraction.length

/-- The rational number that a written number denotes. -/
def decimalValue : List Char → ℚ
  | '-' :: t => -placeValue t
  | t => placeValue t

section Grammar

variable {t : List Char}

theorem mem_sign_iff : t ∈ (1 + {['-']} : Language Char) ↔ ∃ negative, t = signText negative := by
  rw [Language.mem_add, Language.mem_one, mem_word, Bool.exists_bool]
  rfl

theorem mem_fractions_iff : t ∈ fractions ↔
    ∃ fraction ∈ runs1 Char.isDigit, t = fractionText fraction := by
  rw [fractions, Language.mem_mul]
  constructor
  · rintro ⟨_, rfl, fraction, digits, rfl⟩
    obtain ⟨c, r, rfl⟩ := List.exists_cons_of_ne_nil digits.1
    exact ⟨c :: r, digits, rfl⟩
  · rintro ⟨fraction, digits, rfl⟩
    obtain ⟨c, r, rfl⟩ := List.exists_cons_of_ne_nil digits.1
    exact ⟨['.'], rfl, c :: r, digits, rfl⟩

theorem mem_optionalFraction_iff : t ∈ 1 + fractions ↔
    ∃ fraction ∈ runs Char.isDigit, t = fractionText fraction := by
  rw [Language.mem_add, Language.mem_one, mem_fractions_iff]
  constructor
  · rintro (rfl | ⟨fraction, digits, rfl⟩)
    · exact ⟨[], List.forall_mem_nil _, rfl⟩
    · exact ⟨fraction, digits.2, rfl⟩
  · rintro ⟨fraction, digits, rfl⟩
    cases fraction with
    | nil => exact .inl rfl
    | cons c r => exact .inr ⟨c :: r, ⟨by simp, digits⟩, rfl⟩

theorem mem_wholeNumbers_iff : t ∈ wholeNumbers ↔
    ∃ negative, ∃ whole ∈ runs1 Char.isDigit, t = numberText negative whole [] := by
  simp only [wholeNumbers, Language.mem_mul, mem_sign_iff, numberText, fractionText,
    List.append_nil]
  constructor
  · rintro ⟨_, ⟨negative, rfl⟩, whole, digits, rfl⟩
    exact ⟨negative, whole, digits, rfl⟩
  · rintro ⟨negative, whole, digits, rfl⟩
    exact ⟨_, ⟨negative, rfl⟩, whole, digits, rfl⟩

theorem mem_numbers_iff : t ∈ numbers ↔
    ∃ negative, ∃ whole ∈ runs1 Char.isDigit, ∃ fraction ∈ runs Char.isDigit,
      t = numberText negative whole fraction := by
  simp only [numbers, Language.mem_mul, mem_sign_iff, mem_optionalFraction_iff, numberText]
  constructor
  · rintro ⟨_, ⟨negative, rfl⟩, _, ⟨whole, digits, _, ⟨fraction, behind, rfl⟩, rfl⟩, rfl⟩
    exact ⟨negative, whole, digits, fraction, behind, rfl⟩
  · rintro ⟨negative, whole, digits, fraction, behind, rfl⟩
    exact ⟨_, ⟨negative, rfl⟩, _, ⟨whole, digits, _, ⟨fraction, behind, rfl⟩, rfl⟩, rfl⟩

theorem mem_float_language_iff : t ∈ Literal.float.language ↔
    ∃ negative, ∃ whole ∈ runs1 Char.isDigit, ∃ fraction ∈ runs1 Char.isDigit,
      t = numberText negative whole fraction := by
  simp only [Literal.language, Language.mem_mul, mem_sign_iff, mem_fractions_iff, numberText]
  constructor
  · rintro ⟨_, ⟨negative, rfl⟩, _, ⟨whole, digits, _, ⟨fraction, behind, rfl⟩, rfl⟩, rfl⟩
    exact ⟨negative, whole, digits, fraction, behind, rfl⟩
  · rintro ⟨negative, whole, digits, fraction, behind, rfl⟩
    exact ⟨_, ⟨negative, rfl⟩, _, ⟨whole, digits, _, ⟨fraction, behind, rfl⟩, rfl⟩, rfl⟩

end Grammar

section Digits

variable {whole fraction : List Char} {negative : Bool}

theorem natOfDigits_append (whole fraction : List Char) :
    natOfDigits (whole ++ fraction) =
      10 ^ fraction.length * natOfDigits whole + natOfDigits fraction := by
  rw [natOfDigits, Nat.ofDigitChars_append, Nat.ofDigitChars_eq_ofDigitChars_zero]
  rfl

theorem stops_fractionText (fraction : List Char) : Stops Char.isDigit (fractionText fraction) := by
  cases fraction with
  | nil => exact Stops.nil
  | cons c r => exact Stops.cons_iff.mpr rfl

/-- A text of digits begins with none of the two signs. -/
theorem splitSign_digits (digits : whole ∈ runs1 Char.isDigit) (r : List Char) :
    splitSign (whole ++ r) = (false, whole ++ r) := by
  obtain ⟨c, rest, rfl⟩ := List.exists_cons_of_ne_nil digits.1
  have digit : c.isDigit = true := digits.2 c (List.mem_cons_self ..)
  rw [List.cons_append]
  unfold splitSign
  split
  next e =>
    obtain ⟨rfl, -⟩ := List.cons.inj e
    cases digit
  next e =>
    obtain ⟨rfl, -⟩ := List.cons.inj e
    cases digit
  next => rfl

theorem splitSign_numberText (digits : whole ∈ runs1 Char.isDigit) :
    splitSign (numberText negative whole fraction) =
      (negative, whole ++ fractionText fraction) := by
  cases negative with
  | true => rfl
  | false => exact splitSign_digits digits _

theorem placeValue_append (digits : whole ∈ runs1 Char.isDigit) :
    placeValue (whole ++ fractionText fraction) =
      natOfDigits (whole ++ fraction) / 10 ^ fraction.length := by
  have first := (stops_fractionText fraction).takeWhile_append digits.2
  have rest := (stops_fractionText fraction).dropWhile_append digits.2
  have behind : (fractionText fraction).tail = fraction := by
    cases fraction <;> rfl
  rw [placeValue, first, rest, behind, natOfDigits_append]
  push_cast
  field_simp

/-- All digits make up a whole number, which the point divides by a power of ten. -/
theorem decimalValue_numberText (digits : whole ∈ runs1 Char.isDigit) :
    decimalValue (numberText negative whole fraction) =
      (if negative then -1 else 1) *
        (natOfDigits (whole ++ fraction) / 10 ^ fraction.length) := by
  rw [← placeValue_append digits]
  cases negative with
  | true => simp [numberText, signText, decimalValue]
  | false =>
      obtain ⟨c, r, rfl⟩ := List.exists_cons_of_ne_nil digits.1
      have digit : c.isDigit = true := digits.2 c (List.mem_cons_self ..)
      simp only [numberText, signText]
      change decimalValue (c :: (r ++ fractionText fraction)) = _
      rw [decimalValue]
      · simp
      · rintro t e
        obtain ⟨rfl, -⟩ := List.cons.inj e
        cases digit

end Digits

section Reading

variable {whole fraction : List Char} {negative : Bool}

theorem intOfText?_numberText (digits : whole ∈ runs1 Char.isDigit) :
    intOfText? (numberText negative whole []) =
      some (if negative then -(natOfDigits whole : Int) else natOfDigits whole) := by
  have present : whole.isEmpty = false := List.isEmpty_eq_false_iff.mpr digits.1
  have all : whole.all Char.isDigit = true := List.all_eq_true.mpr digits.2
  simp [intOfText?, splitSign_numberText digits, fractionText, present, all]

theorem Decimal.ofText?_numberText (digits : whole ∈ runs1 Char.isDigit)
    (behind : fraction ∈ runs Char.isDigit) :
    Decimal.ofText? (numberText negative whole fraction) =
      some ⟨negative, natOfDigits (whole ++ fraction), -(fraction.length : Int)⟩ := by
  have first := (stops_fractionText fraction).takeWhile_append digits.2
  have rest := (stops_fractionText fraction).dropWhile_append digits.2
  have present : whole.isEmpty = false := List.isEmpty_eq_false_iff.mpr digits.1
  simp only [Decimal.ofText?, splitSign_numberText digits, first, rest]
  cases fraction with
  | nil => simp [fractionText, present, exponentOfText?]
  | cons c r =>
      have inside : (c :: r).takeWhile Char.isDigit = c :: r :=
        List.takeWhile_eq_self_iff.mpr behind
      have outside : (c :: r).dropWhile Char.isDigit = [] :=
        List.dropWhile_eq_nil_iff.mpr behind
      simp [fractionText, present, exponentOfText?, inside, outside]

/-- What is cut off because of its exponent is below half of the smallest positive number. -/
theorem Decimal.lt_of_cutoff {mantissa places : Nat}
    (cut : mantissa.log2 + 152 < 3 * (places + 1)) :
    2 * (mantissa * Binary32.unitsPerOne) < 10 ^ (places + 1) := by
  have digits : mantissa < 2 ^ (mantissa.log2 + 1) := Nat.lt_log2_self
  calc 2 * (mantissa * Binary32.unitsPerOne)
      < 2 * (2 ^ (mantissa.log2 + 1) * 2 ^ 149) := by
        rw [Binary32.unitsPerOne_eq]
        omega
    _ = 2 ^ (mantissa.log2 + 151) := by ring
    _ ≤ 2 ^ (3 * (places + 1)) := Nat.pow_le_pow_right (by decide) (by omega)
    _ = 8 ^ (places + 1) := by rw [pow_mul]; rfl
    _ ≤ 10 ^ (places + 1) := Nat.pow_le_pow_left (by decide) _

/-- A decimal is rounded as the ratio that it denotes. -/
theorem Decimal.toBinary32_eq (negative : Bool) (mantissa places : Nat) :
    Decimal.toBinary32 ⟨negative, mantissa, -(places : Int)⟩ =
      .ofRatio negative mantissa (10 ^ places) := by
  cases places with
  | zero =>
      change (if mantissa = 0 then _ else if 39 ≤ 0 then _ else _) = _
      by_cases zero : mantissa = 0
      · subst zero
        rw [if_pos rfl, Binary32.ofRatio, Binary32.patternOfRatio_eq_zero (by decide)]
      · rw [if_neg zero, if_neg (by decide)]
        exact congrArg (Binary32.ofRatio negative · 1) (Nat.mul_one mantissa)
  | succ places =>
      change (if mantissa.log2 + 152 < 3 * (places + 1) then _ else _) = _
      by_cases cut : mantissa.log2 + 152 < 3 * (places + 1)
      · rw [if_pos cut, Binary32.ofRatio,
          Binary32.patternOfRatio_eq_zero (Decimal.lt_of_cutoff cut)]
      · rw [if_neg cut]
        rfl

theorem toLower_of_isDigit {c : Char} (digit : c.isDigit = true) : c.toLower = c := by
  have range : 48 ≤ c.toNat ∧ c.toNat ≤ 57 := Char.isDigit_iff_toNat.mp digit
  have outside : ¬ (c.val ≥ 'A'.val ∧ c.val ≤ 'Z'.val) := by
    rintro ⟨above, -⟩
    have : 65 ≤ c.toNat := UInt32.le_iff_toNat_le.mp above
    omega
  delta Char.toLower
  exact dif_neg outside

/-- A written number is read as the ratio that it denotes, rounded. -/
theorem Binary32.ofText?_numberText (digits : whole ∈ runs1 Char.isDigit)
    (behind : fraction ∈ runs Char.isDigit) :
    Binary32.ofText? (numberText negative whole fraction) =
      some (.ofRatio negative (natOfDigits (whole ++ fraction)) (10 ^ fraction.length)) := by
  obtain ⟨c, r, rfl⟩ := List.exists_cons_of_ne_nil digits.1
  have digit : c.isDigit = true := digits.2 c (List.mem_cons_self ..)
  have noWord : ∀ (d : Char) (w : List Char), d.isDigit = false →
      (c :: r ++ fractionText fraction).map Char.toLower ≠ d :: w := by
    rintro d w letter same
    rw [List.cons_append, List.map_cons, toLower_of_isDigit digit] at same
    rw [← (List.cons.inj same).1, digit] at letter
    cases letter
  have noInf : (c :: r ++ fractionText fraction).map Char.toLower ≠ "inf".toList :=
    noWord 'i' ['n', 'f'] rfl
  have noInfinity : (c :: r ++ fractionText fraction).map Char.toLower ≠ "infinity".toList :=
    noWord 'i' ['n', 'f', 'i', 'n', 'i', 't', 'y'] rfl
  have noNaN : (c :: r ++ fractionText fraction).map Char.toLower ≠ "nan".toList :=
    noWord 'n' ['a', 'n'] rfl
  simp only [Binary32.ofText?, splitSign_numberText digits, Bool.or_eq_true, decide_eq_true_eq]
  rw [if_neg (not_or.mpr ⟨noInf, noInfinity⟩), if_neg noNaN,
    Decimal.ofText?_numberText digits behind, Option.map_some, Decimal.toBinary32_eq]

/-- Reading a written number never fails. What comes out is finite below the overflow bound. -/
theorem exists_ofText?_of_mem_numbers {t : List Char} (member : t ∈ numbers) :
    ∃ x, Binary32.ofText? t = some x ∧
      (x.isFinite = true ↔ |decimalValue t| < Binary32.overflowBound) := by
  obtain ⟨negative, whole, digits, fraction, behind, rfl⟩ := mem_numbers_iff.mp member
  refine ⟨_, Binary32.ofText?_numberText digits behind, ?_⟩
  have scale : (0 : ℚ) < 10 ^ fraction.length := by positivity
  have magnitude : |decimalValue (numberText negative whole fraction)| =
      natOfDigits (whole ++ fraction) / 10 ^ fraction.length := by
    have unsigned : (0 : ℚ) ≤ natOfDigits (whole ++ fraction) / 10 ^ fraction.length := by
      positivity
    have sign : |(if negative then -1 else 1 : ℚ)| = 1 := by
      cases negative <;> simp
    rw [decimalValue_numberText digits, abs_mul, sign, one_mul, abs_of_nonneg unsigned]
  rw [Binary32.isFinite_ofRatio_iff (Nat.pow_pos (by decide)), magnitude, div_lt_iff₀ scale]
  exact_mod_cast Iff.rfl

end Reading

end CommandConsole
