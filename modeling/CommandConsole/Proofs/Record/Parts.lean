import CommandConsole.Proofs.Number.ReadBack
import CommandConsole.Settings.Text

/-!
# Parts of a record read back

Space is skipped once and for all. The digits of a number are read up to the
comma behind them, which is part of no number, and a quoted character up to its
closing quote, whatever character it is.
-/

namespace CommandConsole

open Text

namespace Record

section Spacing

variable {c : Char}

theorem skipSpace_of_not_isSpace (solid : isSpace c = false) (plain : c ≠ '/') (r : List Char) :
    skipSpace (c :: r) = some (c :: r) := by
  simp [skipSpace, Spacing.skip, plain, solid]

/-- Behind space and comments there are no more of them. -/
theorem skipSpace_of_skip {mode : Spacing} {s t : List Char} (skipped : mode.skip s = some t) :
    skipSpace t = some t := by
  fun_induction Spacing.skip mode s with
  | case1 | case7 =>
      obtain rfl := Option.some.inj skipped
      rfl
  | case4 | case10 => cases skipped
  | case6 c r _ _ plain solid =>
      obtain rfl := Option.some.inj skipped
      exact skipSpace_of_not_isSpace (Bool.eq_false_iff.mpr solid) plain r
  | _ =>
      next ih => exact ih skipped

end Spacing

section Digits

variable {digits : List Char} {c : Char}

theorem hexDigit?_of_isDigit (digit : c.isDigit = true) :
    hexDigit? c = some (c.toNat - '0'.toNat) := if_pos digit

theorem ne_of_isDigit {other : Char} (digit : c.isDigit = true) (outside : other.isDigit = false) :
    c ≠ other := by
  rintro rfl
  simp [digit] at outside

theorem bounds_of_isDigit (digit : c.isDigit = true) : 48 ≤ c.toNat ∧ c.toNat ≤ 57 := by
  simp only [Char.isDigit, Bool.and_eq_true, decide_eq_true_eq, ge_iff_le,
    UInt32.le_iff_toNat_le] at digit
  exact digit

theorem toNat_lt_of_isDigit (digit : c.isDigit = true) : c.toNat - '0'.toNat < 10 := by
  have upper := (bounds_of_isDigit digit).2
  have zero : '0'.toNat = 48 := rfl
  omega

theorem isSpace_eq_false_of_isDigit (digit : c.isDigit = true) : isSpace c = false := by
  obtain ⟨lower, upper⟩ := bounds_of_isDigit digit
  simp only [isSpace, Bool.or_eq_false_iff, Bool.and_eq_false_iff, decide_eq_false_iff_not,
    beq_eq_false_iff_ne]
  omega

/-- Decimal digits are read to the base 10 as the number they denote. -/
theorem natOfBase?_digits (inside : ∀ c ∈ digits, c.isDigit = true) :
    natOfBase? 10 digits = some (natOfDigits digits) := by
  have solid : digits.filter (· ≠ '_') = digits := by
    rw [List.filter_eq_self]
    intro c member
    exact decide_eq_true (ne_of_isDigit (inside c member) rfl)
  rw [natOfBase?, solid, natOfDigits]
  clear solid
  generalize 0 = start
  induction digits generalizing start with
  | nil => rfl
  | cons c digits ih =>
      have digit : c.isDigit = true := inside c (List.mem_cons_self ..)
      have step : (do
          let d ← hexDigit? c
          if d < 10 then some (10 * start + d) else none) =
          some (10 * start + (c.toNat - '0'.toNat)) := by
        rw [hexDigit?_of_isDigit digit]
        exact if_pos (toNat_lt_of_isDigit digit)
      rw [List.foldlM_cons, Nat.ofDigitChars_cons, step]
      exact ih (fun d member => inside d (List.mem_cons_of_mem c member)) _

/-- Digits in front of a comma have no mark of another base. -/
theorem splitBase_digits (inside : digits ∈ runs1 Char.isDigit) (r : List Char) :
    splitBase (digits ++ ',' :: r) = (10, digits ++ ',' :: r) := by
  obtain ⟨first, rest, rfl⟩ := List.exists_cons_of_ne_nil inside.1
  have second : ∀ c ∈ (rest ++ ',' :: r).head?, c.isDigit = true ∨ c = ',' := by
    intro c head
    cases rest with
    | nil => exact .inr (Option.some.inj head).symm
    | cons d rest =>
        obtain rfl := Option.some.inj head
        exact .inl (inside.2 d (by simp))
  rw [List.cons_append]
  generalize rest ++ ',' :: r = behind at second
  unfold splitBase
  split
  case h_4 => rfl
  all_goals
    next e =>
      obtain ⟨-, rfl⟩ := List.cons.inj e
      obtain digit | comma := second _ rfl
      · cases digit
      · cases comma

theorem MachineType.read?_comma (r : List Char) : read? (',' :: r) = none := rfl

/-- Digits in front of a comma are a whole number. -/
theorem wholeNumber?_digits (inside : digits ∈ runs1 Char.isDigit) (r : List Char) :
    wholeNumber? (digits ++ ',' :: r) = some (⟨false, natOfDigits digits, none⟩, ',' :: r) := by
  have hexadecimal : ∀ c ∈ digits, isIntegerCharacter c = true := by
    intro c member
    simp [isIntegerCharacter, isHexDigit, hexDigit?_of_isDigit (inside.2 c member)]
  have stops : Stops isIntegerCharacter (',' :: r) := Stops.cons_iff.mpr rfl
  have number : natural? (digits ++ ',' :: r) = some (natOfDigits digits, ',' :: r) := by
    have solid : (digits.isEmpty || digits.head? = some '_') = false := by
      obtain ⟨c, rest, rfl⟩ := List.exists_cons_of_ne_nil inside.1
      have plain : c ≠ '_' := ne_of_isDigit (inside.2 c (List.mem_cons_self ..)) rfl
      simp [plain]
    simp only [natural?, splitBase_digits inside, stops.takeWhile_append hexadecimal,
      stops.dropWhile_append hexadecimal, natOfBase?_digits inside.2, solid]
    rfl
  have unquoted : quotedByte? (digits ++ ',' :: r) = none := by
    obtain ⟨c, rest, rfl⟩ := List.exists_cons_of_ne_nil inside.1
    have plain : c ≠ 'b' := ne_of_isDigit (inside.2 c (List.mem_cons_self ..)) rfl
    simp [quotedByte?, plain]
  have unsigned : splitSign (digits ++ ',' :: r) = (false, digits ++ ',' :: r) :=
    splitSign_digits inside _
  simp [wholeNumber?, unquoted, unsigned, number, MachineType.read?_comma]

/-- A number of 64 bits is read from its digits. -/
theorem word64?_digits (n : UInt64) (r : List Char) :
    word64? (decimalDigits n.toNat ++ ',' :: r) = some (n, ',' :: r) := by
  have small : MachineType.u64.holds false n.toNat = true := decide_eq_true n.toNat_lt
  simp [word64?, wholeNumber?_digits (decimalDigits_mem _), natOfDigits_decimalDigits, small]

end Digits

/-- Every character is read from its quoted form, in front of any rest. -/
theorem quotedCharacter?_quote (c : Char) (r : List Char) :
    quotedCharacter? (Settings.quote c ++ r) = some (c, r) := by
  by_cases special : c = '\'' ∨ c = '\\'
  · obtain rfl | rfl := special <;> rfl
  · obtain ⟨apart, apart'⟩ := not_or.mp special
    simp [Settings.quote, quotedCharacter?, apart, apart']

end Record

end CommandConsole
