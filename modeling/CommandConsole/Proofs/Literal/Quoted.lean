import Mathlib.Data.Set.List
import CommandConsole.Literal.Meaning
import CommandConsole.Proofs.Literal.Grammar

/-!
# Quoted texts

What stands between quotes is made up of units: a character that is neither a
quote nor a backslash, or a backslash with any one character behind it. The
closing quote is looked for by a scanner, and backslashes are dropped by a
reader that goes through the token anew. Both take one unit after the other, so
neither ever takes the second half of a unit for the beginning of one.

Every text can be written in units, and is read back from them.
-/

namespace CommandConsole

open Text
open scoped Computability

/-- A piece of a quoted text that is read at once. -/
inductive QuotedUnit where
  | plain (c : Char) (inside : c ≠ '"' ∧ c ≠ '\\')
  | escaped (c : Char)

namespace QuotedUnit

def written : QuotedUnit → List Char
  | plain c _ => [c]
  | escaped c => ['\\', c]

/-- The backslash is dropped in front of a quote and of a backslash. Other units are kept. -/
def meaning : QuotedUnit → List Char
  | plain c _ => [c]
  | escaped c => if c = '"' ∨ c = '\\' then [c] else ['\\', c]

/-- The unit that stands for a character. -/
def ofChar (c : Char) : QuotedUnit :=
  if special : c = '"' ∨ c = '\\' then escaped c else plain c (not_or.mp special)

theorem written_ofChar (c : Char) :
    (ofChar c).written = if c = '"' ∨ c = '\\' then ['\\', c] else [c] := by
  by_cases special : c = '"' ∨ c = '\\' <;> simp [ofChar, special, written]

theorem meaning_ofChar (c : Char) : (ofChar c).meaning = [c] := by
  by_cases special : c = '"' ∨ c = '\\' <;> simp [ofChar, special, meaning]

end QuotedUnit

/-- Units between quotes. -/
def quotedText (units : List QuotedUnit) : List Char :=
  '"' :: (units.flatMap QuotedUnit.written ++ ['"'])

/-- A text between quotes, with a backslash in front of every quote and every backslash. -/
def quoted (s : List Char) : List Char :=
  '"' :: (s.flatMap (fun c => if c = '"' ∨ c = '\\' then ['\\', c] else [c]) ++ ['"'])

section Writing

variable {t : List Char}

theorem mem_quotedUnits_iff : t ∈ quotedUnits ↔ t ∈ Set.range QuotedUnit.written := by
  constructor
  · intro member
    rcases (Language.mem_add _ _ _).mp member with ⟨c, plain, rfl⟩ | escaped
    · exact ⟨.plain c (of_decide_eq_true plain), rfl⟩
    · obtain ⟨_, rfl, _, ⟨c, _, rfl⟩, rfl⟩ := Language.mem_mul.mp escaped
      exact ⟨.escaped c, rfl⟩
  · rintro ⟨⟨c, inside⟩ | ⟨c⟩, rfl⟩
    · exact plain_mem_quotedUnits inside
    · exact escaped_mem_quotedUnits c

theorem mem_kstar_quotedUnits_iff :
    t ∈ quotedUnits∗ ↔ ∃ units : List QuotedUnit, t = units.flatMap QuotedUnit.written := by
  have all (pieces : List (List Char)) : (∀ u ∈ pieces, u ∈ quotedUnits) ↔
      ∃ units : List QuotedUnit, units.map QuotedUnit.written = pieces := by
    simp only [mem_quotedUnits_iff]
    exact Set.ext_iff.mp (Set.range_list_map QuotedUnit.written).symm pieces
  simp only [Language.mem_kstar, all, List.flatMap_def]
  constructor
  · rintro ⟨_, rfl, units, rfl⟩
    exact ⟨units, rfl⟩
  · rintro ⟨units, rfl⟩
    exact ⟨_, rfl, units, rfl⟩

/-- The tokens of texts are units between quotes. -/
theorem mem_string_language_iff :
    t ∈ Literal.string.language ↔ ∃ units, t = quotedText units := by
  simp only [Literal.language, Language.mem_mul, mem_kstar_quotedUnits_iff]
  constructor
  · rintro ⟨_, rfl, _, ⟨_, ⟨units, rfl⟩, _, rfl, rfl⟩, rfl⟩
    exact ⟨units, rfl⟩
  · rintro ⟨units, rfl⟩
    exact ⟨['"'], rfl, _, ⟨_, ⟨units, rfl⟩, ['"'], rfl, rfl⟩, rfl⟩

theorem quoted_eq (s : List Char) : quoted s = quotedText (s.map QuotedUnit.ofChar) := by
  simp only [quoted, quotedText, List.flatMap_map, QuotedUnit.written_ofChar]

end Writing

section Reading

theorem innerText_quotedText (units : List QuotedUnit) :
    innerText (quotedText units) = units.flatMap QuotedUnit.written := by
  rw [innerText, quotedText, List.tail_cons, List.dropLast_concat]

theorem unescape_cons {c : Char} (other : c ≠ '\\') (s : List Char) :
    unescape (c :: s) = c :: unescape s := by
  rw [unescape]
  · rintro rfl
    exact absurd rfl other
  · rintro d r rfl
    exact absurd rfl other

/-- Reading takes one unit after the other. -/
theorem unescape_written (unit : QuotedUnit) (s : List Char) :
    unescape (unit.written ++ s) = unit.meaning ++ unescape s := by
  cases unit with
  | plain c inside => exact unescape_cons inside.2 s
  | escaped c =>
      change unescape ('\\' :: c :: s) = _
      rw [unescape, QuotedUnit.meaning]
      split
      next special => rw [if_pos (by simpa using special)]; rfl
      next other => rw [if_neg (by simpa using other)]; rfl

theorem unescape_flatMap_written (units : List QuotedUnit) :
    unescape (units.flatMap QuotedUnit.written) = units.flatMap QuotedUnit.meaning := by
  induction units with
  | nil => rfl
  | cons unit units ih => rw [List.flatMap_cons, List.flatMap_cons, unescape_written, ih]

theorem read_quotedText (find : ObjectLookup) (units : List QuotedUnit) :
    Literal.string.read find (quotedText units) =
      .ok ⟨.string (String.ofList (units.flatMap QuotedUnit.meaning)), []⟩ := by
  rw [Literal.read, innerText_quotedText, unescape_flatMap_written]

theorem read_quoted (find : ObjectLookup) (s : String) :
    Literal.string.read find (quoted s.toList) = .ok ⟨.string s, []⟩ := by
  have same : (s.toList.map QuotedUnit.ofChar).flatMap QuotedUnit.meaning = s.toList := by
    simp only [List.flatMap_map, QuotedUnit.meaning_ofChar, List.flatMap_singleton']
  rw [quoted_eq, read_quotedText, same, String.ofList_toList]

end Reading

/-- A text literal is units between quotes with a boundary behind the closing one. It is read as
what its units mean, one after the other. So every text can be written, with a backslash in front
of its quotes and backslashes: in front of any boundary that is recognized as a whole and read
back as the same text. -/
theorem quoted_texts_read_back :
    (∀ s t r : List Char, Literal.string.recognize s = some (t, r) ↔
      s = t ++ r ∧ (∃ units, t = quotedText units) ∧
        (r = [] ∨ ∃ c u, r = c :: u ∧ isBlank c = true)) ∧
    (∀ (find : ObjectLookup) (units : List QuotedUnit),
      Literal.string.read find (quotedText units) =
        .ok ⟨.string (String.ofList (units.flatMap QuotedUnit.meaning)), []⟩) ∧
    ∀ (s : String) (r : List Char), (r = [] ∨ ∃ c u, r = c :: u ∧ isBlank c = true) →
      Literal.string.recognize (quoted s.toList ++ r) = some (quoted s.toList, r) ∧
        ∀ find : ObjectLookup, Literal.string.read find (quoted s.toList) = .ok ⟨.string s, []⟩ := by
  refine ⟨fun s t r => ?_, read_quotedText, fun s r boundary => ⟨?_, fun find => ?_⟩⟩
  · rw [Literal.recognize_eq_some_iff, mem_string_language_iff, atBoundary_iff]
  · rw [Literal.recognize_eq_some_iff, mem_string_language_iff, atBoundary_iff]
    exact ⟨rfl, ⟨_, quoted_eq s.toList⟩, boundary⟩
  · exact read_quoted find s

/-- A text that ends with a backslash, in front of a second literal. -/
theorem quoted_texts_read_back_final_backslash :
    quoted "é\"\n\\".toList = "\"é\\\"\n\\\\\"".toList ∧
      Literal.string.recognize "\"é\\\"\n\\\\\" \"x\"".toList =
        some ("\"é\\\"\n\\\\\"".toList, " \"x\"".toList) ∧
      Literal.string.read (fun _ => none) "\"é\\\"\n\\\\\"".toList =
        .ok ⟨.string "é\"\n\\", []⟩ := by
  have written : quoted "é\"\n\\".toList = "\"é\\\"\n\\\\\"".toList := by decide
  obtain ⟨found, read⟩ := quoted_texts_read_back.2.2 "é\"\n\\" " \"x\"".toList
    (.inr ⟨' ', "\"x\"".toList, by decide, by decide⟩)
  rw [written] at found read
  exact ⟨written, found, read _⟩

end CommandConsole
