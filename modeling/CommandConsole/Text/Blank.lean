/-!
# Blank characters

A character is blank when it has the Unicode property `White_Space`. Blanks
separate the command name from its parameters and the parameters from each
other, so every token ends at the end of the text or in front of a blank.

The table is the complete list of 25 code points; no-break and ideographic
spaces belong to it, zero-width spaces and the byte order mark do not.
-/

namespace CommandConsole.Text

/-- The code points with the property `White_Space`. -/
def isBlank (c : Char) : Bool :=
  let n := c.toNat
  (0x9 ≤ n && n ≤ 0xD) || n == 0x20 || n == 0x85 || n == 0xA0 || n == 0x1680 ||
    (0x2000 ≤ n && n ≤ 0x200A) || n == 0x2028 || n == 0x2029 || n == 0x202F ||
    n == 0x205F || n == 0x3000

theorem isBlank_of_isWhitespace {c : Char} (h : c.isWhitespace = true) : isBlank c = true := by
  simp only [Char.isWhitespace, Bool.or_eq_true, decide_eq_true_eq] at h
  rcases h with ((rfl | rfl) | rfl) | rfl <;> decide

/-- No visible ASCII character is blank. -/
theorem isBlank_eq_false_of_toNat {c : Char} (low : 33 ≤ c.toNat) (high : c.toNat ≤ 126) :
    isBlank c = false := by
  simp [isBlank]
  omega

theorem toNat_of_isAlpha {c : Char} (h : c.isAlpha = true) : 65 ≤ c.toNat ∧ c.toNat ≤ 122 := by
  change (decide (65 ≤ c.val ∧ c.val ≤ 90) || 97 ≤ c.val && c.val ≤ 122) = true at h
  simp only [Bool.or_eq_true, Bool.and_eq_true, decide_eq_true_eq, UInt32.le_iff_toNat_le] at h
  change (65 ≤ c.toNat ∧ c.toNat ≤ 90) ∨ 97 ≤ c.toNat ∧ c.toNat ≤ 122 at h
  omega

theorem isBlank_eq_false_of_isAlpha {c : Char} (h : c.isAlpha = true) : isBlank c = false := by
  have := toNat_of_isAlpha h
  exact isBlank_eq_false_of_toNat (by omega) (by omega)

theorem isBlank_eq_false_of_isDigit {c : Char} (h : c.isDigit = true) : isBlank c = false := by
  have : 48 ≤ c.toNat ∧ c.toNat ≤ 57 := Char.isDigit_iff_toNat.mp h
  exact isBlank_eq_false_of_toNat (by omega) (by omega)

theorem isBlank_eq_false_of_isAlphanum {c : Char} (h : c.isAlphanum = true) :
    isBlank c = false := by
  rcases (Bool.or_eq_true _ _).mp h with letter | digit
  · exact isBlank_eq_false_of_isAlpha letter
  · exact isBlank_eq_false_of_isDigit digit

/-- A token may end here: nothing follows, or a blank does. -/
def atBoundary : List Char → Bool
  | [] => true
  | c :: _ => isBlank c

@[simp] theorem atBoundary_nil : atBoundary [] = true := rfl

@[simp] theorem atBoundary_cons (c : Char) (s : List Char) :
    atBoundary (c :: s) = isBlank c := rfl

theorem atBoundary_append {t : List Char} (nonempty : t ≠ []) (r : List Char) :
    atBoundary (t ++ r) = atBoundary t := by
  cases t with
  | nil => exact absurd rfl nonempty
  | cons c t => rfl

/-- Drop leading blanks. -/
def trimStart (s : List Char) : List Char := s.dropWhile isBlank

theorem length_trimStart_le (s : List Char) : (trimStart s).length ≤ s.length :=
  (List.dropWhile_suffix isBlank).length_le

theorem head_trimStart {s r : List Char} {c : Char} (h : trimStart s = c :: r) :
    isBlank c = false := by
  have := List.head?_dropWhile_not isBlank s
  simp_all [trimStart]

/-- Drop blanks on both sides. -/
def trim (s : List Char) : List Char := (trimStart (trimStart s).reverse).reverse

/-- The first word of a text and what follows it. A text that starts with a
blank has the empty word in front. -/
def splitWord (s : List Char) : List Char × List Char :=
  (s.takeWhile (!isBlank ·), s.dropWhile (!isBlank ·))

@[simp] theorem splitWord_append (s : List Char) : (splitWord s).1 ++ (splitWord s).2 = s :=
  List.takeWhile_append_dropWhile

end CommandConsole.Text
