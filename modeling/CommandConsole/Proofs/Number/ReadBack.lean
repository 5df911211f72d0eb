import CommandConsole.Number.Shortest
import CommandConsole.Proofs.Number.Written

/-!
# Number texts read back

The text of a finite number is read as that number, to the last bit and with its
sign. A whole number is written exactly. For any other one the search takes a
decimal only if it is rounded to the number, and with 149 places it comes to the
number itself.
-/

namespace CommandConsole

open Text

section Digits

theorem natOfDigits_decimalDigits (n : Nat) : natOfDigits (decimalDigits n) = n :=
  Nat.ofDigitChars_ten_toDigits

theorem decimalDigits_mem (n : Nat) : decimalDigits n ∈ runs1 Char.isDigit :=
  ⟨Nat.toDigits_ne_nil, fun _ => Nat.isDigit_of_mem_toDigits (by decide) (by decide)⟩

/-- The text of a whole number. -/
theorem intText_eq (i : Int) : intText i = numberText (i < 0) (decimalDigits i.natAbs) [] := by
  by_cases negative : i < 0 <;> simp [intText, numberText, signText, fractionText, negative]

/-- Digits are written with zeros in front of them where there have to be more. -/
theorem exists_padded {n places : Nat} (positive : 0 < places) (small : n < 10 ^ places) :
    ∃ fraction ∈ runs1 Char.isDigit,
      List.replicate (places - (decimalDigits n).length) '0' ++ decimalDigits n = fraction ∧
        natOfDigits fraction = n ∧ fraction.length = places := by
  have fits : (decimalDigits n).length ≤ places :=
    (Nat.length_toDigits_le_iff (by decide) positive).mpr small
  obtain ⟨nonempty, digits⟩ := decimalDigits_mem n
  refine ⟨_, ⟨by simp [nonempty], fun c member => ?_⟩, rfl, ?_, ?_⟩
  · obtain zero | digit := List.mem_append.mp member
    · obtain rfl := List.eq_of_mem_replicate zero
      rfl
    · exact digits c digit
  · rw [natOfDigits_append, natOfDigits_decimalDigits, natOfDigits,
      Nat.ofDigitChars_replicate_zero, Nat.mul_zero, Nat.mul_zero, Nat.zero_add]
  · rw [List.length_append, List.length_replicate]
    omega

/-- A decimal is written with its digits, as many of them behind the point as it has places. -/
theorem exists_fixedText {places : Nat} (positive : 0 < places) (scaled : Nat) :
    ∃ whole ∈ runs1 Char.isDigit, ∃ fraction ∈ runs1 Char.isDigit,
      fixedText scaled places = numberText false whole fraction ∧
        natOfDigits (whole ++ fraction) = scaled ∧ fraction.length = places := by
  have small : scaled % 10 ^ places < 10 ^ places := Nat.mod_lt _ (Nat.pow_pos (by decide))
  obtain ⟨fraction, digits, written, value, length⟩ := exists_padded positive small
  refine ⟨decimalDigits (scaled / 10 ^ places), decimalDigits_mem _, fraction, digits, ?_, ?_,
    length⟩
  · obtain ⟨c, r, rfl⟩ := List.exists_cons_of_ne_nil digits.1
    rw [fixedText, numberText, fractionText, ← written]
    rfl
  · rw [natOfDigits_append, natOfDigits_decimalDigits, value, length, Nat.div_add_mod]

end Digits

namespace Binary32

variable {p places : Nat}

/-- A finite number that is no whole number. -/
def HasFraction (x : Binary32) : Prop := units x.pattern % unitsPerOne ≠ 0

theorem patternOfRatio_neighbour {n : Nat} (found : neighbour? p places = some n) :
    patternOfRatio n (10 ^ places) = p := by
  simp only [neighbour?] at found
  split at found
  next near =>
    obtain rfl := Option.some.inj found
    exact eq_of_beq ((Bool.and_eq_true _ _).mp near).1
  next =>
    split at found
    next near =>
      obtain rfl := Option.some.inj found
      exact eq_of_beq near
    next => cases found

theorem exists_firstText? {grids : List Nat} {text : List Char} (positive : ∀ k ∈ grids, 0 < k)
    (found : firstText? p grids = some text) :
    ∃ scaled places, 0 < places ∧ text = fixedText scaled places ∧
      patternOfRatio scaled (10 ^ places) = p := by
  obtain ⟨places, member, found⟩ := List.exists_of_findSome?_eq_some found
  obtain ⟨scaled, near, rfl⟩ := Option.map_eq_some_iff.mp found
  exact ⟨scaled, places, positive places member, rfl, patternOfRatio_neighbour near⟩

/-- The search ends with a decimal that is rounded to the number. -/
theorem exists_shortestText (finite : p < infinityPattern) :
    ∃ scaled places, 0 < places ∧ shortestText p = fixedText scaled places ∧
      patternOfRatio scaled (10 ^ places) = p := by
  have positive : ∀ k ∈ List.range' 1 148, 0 < k :=
    fun k member => (List.mem_range'_1.mp member).1
  rw [shortestText]
  cases found : firstText? p (List.range' 1 148) with
  | some text =>
      rw [Option.getD_some]
      exact exists_firstText? positive found
  | none =>
      -- With 149 places the decimal is the number itself.
      have grid : Nat.pow 5 149 * unitsPerOne = 10 ^ 149 := by decide
      rw [Option.getD_none]
      refine ⟨units p * Nat.pow 5 149, 149, by decide, rfl, ?_⟩
      apply patternOfRatio_of_exact finite (Nat.pow_pos (by decide))
      rw [Nat.mul_assoc, grid]

/-- The text of a magnitude is a decimal that is rounded to it, with a point if there is a
fraction. -/
theorem exists_magnitudeText (finite : p < infinityPattern) :
    ∃ whole ∈ runs1 Char.isDigit, ∃ fraction ∈ runs Char.isDigit,
      magnitudeText p = numberText false whole fraction ∧
        patternOfRatio (natOfDigits (whole ++ fraction)) (10 ^ fraction.length) = p ∧
        (units p % unitsPerOne ≠ 0 → fraction ≠ []) := by
  by_cases integral : units p % unitsPerOne = 0
  · refine ⟨decimalDigits (units p / unitsPerOne), decimalDigits_mem _, [], List.forall_mem_nil _,
      ?_, ?_, fun fractional => absurd integral fractional⟩
    · rw [magnitudeText, if_pos integral, numberText, signText, fractionText, List.append_nil]
      rfl
    · rw [List.append_nil, natOfDigits_decimalDigits]
      apply patternOfRatio_of_exact finite (by decide)
      rw [Nat.div_mul_cancel (Nat.dvd_of_mod_eq_zero integral)]
      exact (Nat.mul_one _).symm
  · obtain ⟨scaled, places, positive, text, rounded⟩ := exists_shortestText finite
    obtain ⟨whole, digits, fraction, behind, written, value, length⟩ :=
      exists_fixedText positive scaled
    refine ⟨whole, digits, fraction, behind.2, ?_, ?_, fun _ => behind.1⟩
    · rw [magnitudeText, if_neg integral, text, written]
    · rw [value, length, rounded]

/-- The text of a finite number is a decimal that reads back as the number. -/
theorem exists_display {x : Binary32} (finite : x.isFinite = true) :
    ∃ whole ∈ runs1 Char.isDigit, ∃ fraction ∈ runs Char.isDigit,
      x.display = numberText x.isNegative whole fraction ∧ ofText? x.display = some x ∧
        (x.HasFraction → fraction ≠ []) := by
  have small : x.pattern < infinityPattern := of_decide_eq_true finite
  obtain ⟨whole, digits, fraction, behind, text, rounded, point⟩ := exists_magnitudeText small
  have number : x.isNaN = false := decide_eq_false small.le.not_gt
  have written : x.display = numberText x.isNegative whole fraction := by
    rw [display, number, finite, text]
    cases x.isNegative <;> rfl
  refine ⟨whole, digits, fraction, behind, written, ?_, point⟩
  rw [written, ofText?_numberText digits behind, ofRatio, rounded, ofPattern_pattern]

end Binary32

end CommandConsole
