import CommandConsole.Command.Line
import CommandConsole.Proofs.Literal.Grammar

/-!
# No text is read in two ways

The beginning of a text suggests one literal: its first character, and where
that leaves a choice its first word, the commas up to the first closing
parenthesis or a decimal point before the first blank. No other literal can be
recognized there, so the order in which literals are tried does not matter.
-/

namespace CommandConsole

open Text Text.Scanner

namespace Literal

/-- The literal that a first word suggests, with what stands behind it. -/
def suggestedByWord (word rest : List Char) : Literal :=
  match VariableName.reservedWord? word with
  | some .null => null
  | some .truthValue => bool
  | some .color => color
  | none =>
    if rest.head? = some '(' then
      if word = TupleShape.rgb.lead then tuple .rgb else tuple .rgba
    else varName

/-- The vector with as many commas between its components. -/
def suggestedByCommas : Nat → Literal
  | 1 => tuple .vec2
  | 2 => tuple .vec3
  | _ => tuple .vec4

/-- The only literal that can be recognized at the start of a text. -/
def suggested : List Char → Literal
  | [] => varName
  | c :: s =>
    if c.isAlpha then
      suggestedByWord ((c :: s).takeWhile Char.isAlphanum) ((c :: s).dropWhile Char.isAlphanum)
    else if c = '"' then string
    else if c = '\'' then char
    else if c = '{' then object
    else if c = '#' then color
    else if c = '(' then suggestedByCommas ((s.takeWhile (· ≠ ')')).count ',')
    else if '.' ∈ (c :: s).takeWhile (!isBlank ·) then float
    else int

end Literal

/-- The characters of numbers. -/
def isNumberChar (c : Char) : Bool := c.isDigit || c == '-' || c == '.'

theorem isNumberChar_of_isDigit (c : Char) (digit : c.isDigit = true) : isNumberChar c = true := by
  simp [isNumberChar, digit]

theorem toNat_of_isNumberChar {c : Char} (part : isNumberChar c = true) :
    45 ≤ c.toNat ∧ c.toNat ≤ 57 := by
  simp only [isNumberChar, Bool.or_eq_true, beq_iff_eq] at part
  rcases part with (digit | rfl) | rfl
  · have : 48 ≤ c.toNat ∧ c.toNat ≤ 57 := Char.isDigit_iff_toNat.mp digit
    omega
  · decide
  · decide

theorem isBlank_eq_false_of_isNumberChar {c : Char} (part : isNumberChar c = true) :
    isBlank c = false := by
  have := toNat_of_isNumberChar part
  exact isBlank_eq_false_of_toNat (by omega) (by omega)

theorem isAlpha_eq_false_of_isNumberChar {c : Char} (part : isNumberChar c = true) :
    c.isAlpha = false := by
  cases letter : c.isAlpha with
  | false => rfl
  | true =>
      have low := toNat_of_isAlpha letter
      have high := toNat_of_isNumberChar part
      omega

theorem wholeNumbers_le_runs : wholeNumbers ≤ runs fun c => c.isDigit || c == '-' := by
  apply mul_le_runs
  · exact one_add_le_runs (word_le_runs rfl)
  · exact runs1_le_runs fun c digit => by simp [digit]

theorem fractions_le_runs : fractions ≤ runs isNumberChar :=
  mul_le_runs (word_le_runs rfl) (runs1_le_runs isNumberChar_of_isDigit)

theorem numbers_le_runs : numbers ≤ runs isNumberChar := by
  apply mul_le_runs
  · exact one_add_le_runs (word_le_runs rfl)
  · exact mul_le_runs (runs1_le_runs isNumberChar_of_isDigit) (one_add_le_runs fractions_le_runs)

theorem components_le_runs : components ≤ runs fun c => isBlank c || isNumberChar c := by
  have blanks : runs isBlank ≤ runs fun c => isBlank c || isNumberChar c :=
    runs_le_runs fun c blank => by simp [blank]
  apply mul_le_runs blanks
  apply mul_le_runs _ blanks
  exact numbers_le_runs.trans (runs_le_runs fun c part => by simp [part])

theorem not_mem_components {t : List Char} (member : t ∈ components) {c : Char}
    (outside : (isBlank c || isNumberChar c) = false) : c ∉ t := by
  intro inside
  have within : (isBlank c || isNumberChar c) = true := components_le_runs member c inside
  rw [outside] at within
  cases within

/-- Behind the first component come as many commas as components, and then the
only closing parenthesis. -/
theorem exists_append_of_mem_furtherComponents {n : Nat} {t : List Char}
    (member : t ∈ ({[',']} * components) ^ n * ({[')']} : Language Char)) :
    ∃ u, t = u ++ [')'] ∧ ')' ∉ u ∧ u.count ',' = n := by
  induction n generalizing t with
  | zero =>
      rw [pow_zero, one_mul] at member
      exact ⟨[], member, by simp, rfl⟩
  | succ n ih =>
      rw [pow_succ', mul_assoc, mul_assoc] at member
      obtain ⟨_, rfl, _, ⟨v, component, w, further, rfl⟩, rfl⟩ := Language.mem_mul.mp member
      obtain ⟨u, rfl, closed, count⟩ := ih further
      have closes : (isBlank ')' || isNumberChar ')') = false := rfl
      have separates : (isBlank ',' || isNumberChar ',') = false := rfl
      refine ⟨',' :: v ++ u, by simp, ?_, ?_⟩
      · simp [closed, not_mem_components component closes]
      · simp [count, List.count_eq_zero_of_not_mem
          (not_mem_components component separates)]

namespace Literal

theorem suggested_of_letters {c : Char} (letter : c.isAlpha = true) {t r : List Char}
    (parts : (c :: t).all Char.isAlphanum = true) (stops : Stops Char.isAlphanum r) :
    suggested (c :: t ++ r) = suggestedByWord (c :: t) r := by
  have word := stops.takeWhile_append (List.all_eq_true.mp parts)
  have rest := stops.dropWhile_append (List.all_eq_true.mp parts)
  rw [List.cons_append] at word rest ⊢
  rw [suggested, if_pos letter, word, rest]

theorem reservedWord?_of_isColorName {t : List Char} (named : isColorName t = true) :
    VariableName.reservedWord? t = some .color := by
  have words : ∀ x ∈ namedColors, VariableName.reservedWord? x.1.toList = some .color := by
    decide
  obtain ⟨x, member, rfl⟩ := exists_namedColor named
  exact words x member

theorem reservedWord?_of_isValid {t : List Char} (valid : VariableName.isValid t = true) :
    VariableName.reservedWord? t = none := by
  by_cases shape : VariableName.isWellFormed t = true
  · simpa [VariableName.isValid, VariableName.error?, shape] using valid
  · simp [VariableName.isValid, VariableName.error?, shape] at valid

theorem stops_of_atBoundary {r : List Char} (boundary : atBoundary r = true) :
    Stops Char.isAlphanum r :=
  (atBoundary_iff_stops.mp boundary).mono fun c part => by
    simp [isBlank_eq_false_of_isAlphanum part]

theorem suggested_null {t r : List Char} (member : t ∈ null.language)
    (boundary : atBoundary r = true) : suggested (t ++ r) = null := by
  obtain ⟨_, ⟨c, initial, rfl⟩, _, rfl, rfl⟩ := Language.mem_mul.mp member
  simp only [Bool.or_eq_true, decide_eq_true_eq] at initial
  rcases initial with rfl | rfl
  · exact (suggested_of_letters rfl rfl (stops_of_atBoundary boundary)).trans rfl
  · exact (suggested_of_letters rfl rfl (stops_of_atBoundary boundary)).trans rfl

theorem suggested_bool {t r : List Char} (member : t ∈ bool.language)
    (boundary : atBoundary r = true) : suggested (t ++ r) = bool := by
  rcases (Language.mem_add _ _ _).mp member with member | member
  all_goals
    obtain ⟨_, ⟨c, initial, rfl⟩, _, rfl, rfl⟩ := Language.mem_mul.mp member
    simp only [Bool.or_eq_true, decide_eq_true_eq] at initial
    rcases initial with rfl | rfl
  all_goals
    exact (suggested_of_letters rfl rfl (stops_of_atBoundary boundary)).trans rfl

theorem suggested_color {t r : List Char} (member : t ∈ color.language)
    (boundary : atBoundary r = true) : suggested (t ++ r) = color := by
  rcases (Language.mem_add _ _ _).mp member with ⟨digits, _⟩ | named
  · obtain ⟨_, rfl, u, _, rfl⟩ := Language.mem_mul.mp digits
    rfl
  · obtain ⟨nonempty, letters⟩ := letters_of_isColorName named
    obtain ⟨c, u, rfl⟩ := List.exists_cons_of_ne_nil nonempty
    have reserved := reservedWord?_of_isColorName named
    have parts : (c :: u).all Char.isAlphanum = true := by
      rw [List.all_eq_true]
      intro d inside
      simp [Char.isAlphanum, letters d inside]
    rw [suggested_of_letters (letters c (List.mem_cons_self ..)) parts
      (stops_of_atBoundary boundary), suggestedByWord, reserved]

theorem suggested_varName {t r : List Char} (member : t ∈ varName.language)
    (boundary : atBoundary r = true) : suggested (t ++ r) = varName := by
  obtain ⟨c, u, rfl, letter, parts⟩ := exists_cons_of_isValid member
  have free : VariableName.reservedWord? (c :: u) = none := reservedWord?_of_isValid member
  have behind : r.head? ≠ some '(' := by
    intro opens
    cases r with
    | nil => cases opens
    | cons d r =>
        obtain rfl := Option.some.inj opens
        cases boundary
  have initial : c.isAlpha = true := letter
  have whole : (c :: u).all Char.isAlphanum = true := by
    rw [List.all_cons, Char.isAlphanum, initial, Bool.true_or, Bool.true_and, List.all_eq_true]
    exact parts
  rw [suggested_of_letters letter whole (stops_of_atBoundary boundary), suggestedByWord, free]
  exact if_neg behind

theorem commas_of_components {n : Nat} {v w : List Char} (component : v ∈ components)
    (further : w ∈ ({[',']} * components) ^ n * ({[')']} : Language Char)) (r : List Char) :
    ((v ++ w ++ r).takeWhile (· ≠ ')')).count ',' = n := by
  obtain ⟨u, rfl, closed, count⟩ := exists_append_of_mem_furtherComponents further
  have inside : ∀ c ∈ v ++ u, decide (c ≠ ')') = true := by
    intro c member
    rw [decide_eq_true_eq]
    rintro rfl
    cases List.mem_append.mp member with
    | inl first => exact not_mem_components component (by decide) first
    | inr rest => exact closed rest
  have stops : Stops (· ≠ ')') (')' :: r) := Stops.cons_iff.mpr rfl
  have split : v ++ (u ++ [')']) ++ r = (v ++ u) ++ ')' :: r := by simp
  rw [split, stops.takeWhile_append inside, List.count_append, count,
    List.count_eq_zero_of_not_mem (not_mem_components component (by decide)), Nat.zero_add]

theorem suggested_tuple {shape : TupleShape} {t r : List Char}
    (member : t ∈ (tuple shape).language) : suggested (t ++ r) = tuple shape := by
  obtain ⟨_, rfl, _, ⟨_, rfl, _, ⟨v, component, w, further, rfl⟩, rfl⟩, rfl⟩ :=
    Language.mem_mul.mp member
  cases shape with
  | rgb =>
      have stops : Stops Char.isAlphanum ('(' :: (v ++ w ++ r)) := Stops.cons_iff.mpr rfl
      exact (suggested_of_letters (t := ['g', 'b']) rfl rfl stops).trans rfl
  | rgba =>
      have stops : Stops Char.isAlphanum ('(' :: (v ++ w ++ r)) := Stops.cons_iff.mpr rfl
      exact (suggested_of_letters (t := ['g', 'b', 'a']) rfl rfl stops).trans rfl
  | vec2 => exact congrArg suggestedByCommas (commas_of_components component further r)
  | vec3 => exact congrArg suggestedByCommas (commas_of_components component further r)
  | vec4 => exact congrArg suggestedByCommas (commas_of_components component further r)

/-- Only a decimal point tells numbers apart, and no number has any before its
first blank but its own. -/
theorem suggested_of_number {t r : List Char} (nonempty : t ≠ [])
    (parts : ∀ c ∈ t, isNumberChar c = true) (boundary : atBoundary r = true) :
    suggested (t ++ r) = if '.' ∈ t then float else int := by
  have inside : ∀ c ∈ t, (!isBlank c) = true := by
    intro c member
    simp [isBlank_eq_false_of_isNumberChar (parts c member)]
  have whole := (atBoundary_iff_stops.mp boundary).takeWhile_append inside
  obtain ⟨c, u, rfl⟩ := List.exists_cons_of_ne_nil nonempty
  have part := parts c (List.mem_cons_self ..)
  have other : ∀ d, isNumberChar d = false → c ≠ d := by
    rintro d outside rfl
    rw [part] at outside
    cases outside
  rw [List.cons_append] at whole ⊢
  rw [suggested, if_neg (by simp [isAlpha_eq_false_of_isNumberChar part]),
    if_neg (other '"' rfl), if_neg (other '\'' rfl), if_neg (other '{' rfl),
    if_neg (other '#' rfl), if_neg (other '(' rfl), whole]

theorem suggested_float {t r : List Char} (member : t ∈ float.language)
    (boundary : atBoundary r = true) : suggested (t ++ r) = float := by
  have parts : float.language ≤ runs isNumberChar := by
    apply mul_le_runs
    · exact one_add_le_runs (word_le_runs rfl)
    · exact mul_le_runs (runs1_le_runs isNumberChar_of_isDigit) fractions_le_runs
  have point : '.' ∈ t := by
    obtain ⟨u, _, _, ⟨v, _, _, ⟨_, rfl, w, _, rfl⟩, rfl⟩, rfl⟩ := Language.mem_mul.mp member
    simp
  rw [suggested_of_number (List.ne_nil_of_mem point) (parts member) boundary, if_pos point]

theorem suggested_int {t r : List Char} (member : t ∈ int.language)
    (boundary : atBoundary r = true) : suggested (t ++ r) = int := by
  have parts : ∀ c ∈ t, (c.isDigit || c == '-') = true := wholeNumbers_le_runs member
  have nonempty : t ≠ [] := by
    obtain ⟨u, _, v, ⟨nonempty, _⟩, rfl⟩ := Language.mem_mul.mp member
    exact fun empty => nonempty (List.append_eq_nil_iff.mp empty).2
  have point : '.' ∉ t := fun inside => absurd (parts '.' inside) (by decide)
  rw [suggested_of_number nonempty (fun c inside => by simp [isNumberChar, parts c inside])
    boundary, if_neg point]

theorem suggested_of_recognize {l : Literal} {s t r : List Char}
    (found : l.recognize s = some (t, r)) : suggested s = l := by
  obtain ⟨rfl, member, boundary⟩ := recognize_eq_some_iff.mp found
  cases l with
  | null => exact suggested_null member boundary
  | float => exact suggested_float member boundary
  | string =>
      obtain ⟨_, rfl, u, _, rfl⟩ := Language.mem_mul.mp member
      rfl
  | bool => exact suggested_bool member boundary
  | char =>
      obtain ⟨_, rfl, u, _, rfl⟩ := Language.mem_mul.mp member
      rfl
  | int => exact suggested_int member boundary
  | tuple shape => exact suggested_tuple member
  | color => exact suggested_color member boundary
  | object =>
      obtain ⟨_, rfl, u, _, rfl⟩ := Language.mem_mul.mp member
      rfl
  | varName => exact suggested_varName member boundary

/-- At most one literal can be recognized. -/
theorem eq_of_recognize {l l' : Literal} {s t t' r r' : List Char}
    (found : l.recognize s = some (t, r)) (found' : l'.recognize s = some (t', r')) : l = l' :=
  (suggested_of_recognize found).symm.trans (suggested_of_recognize found')

/-- What one literal recognizes no other one does. -/
theorem recognize_eq_none_of_recognize {l l' : Literal} {s t r : List Char}
    (found : l.recognize s = some (t, r)) (other : l' ≠ l) : l'.recognize s = none := by
  by_contra recognized
  obtain ⟨⟨t', r'⟩, found'⟩ := Option.ne_none_iff_exists'.mp recognized
  exact other (eq_of_recognize found' found)

theorem nodup_standard : standard.Nodup := by decide

theorem length_recognizing_le_one (s : List Char) :
    (standard.filter fun l => (l.recognize s).isSome).length ≤ 1 := by
  have distinct := nodup_standard.filter fun l => (l.recognize s).isSome
  have equal : ∀ l ∈ standard.filter fun l => (l.recognize s).isSome, l = suggested s := by
    intro l member
    obtain ⟨x, found⟩ := Option.isSome_iff_exists.mp (List.mem_filter.mp member).2
    exact (suggested_of_recognize found).symm
  rw [List.eq_replicate_of_mem equal, List.nodup_replicate] at distinct
  exact distinct

end Literal

section Chain

variable {literals : List Literal} {s : List Char}

/-- In a list in which every literal occurs, wherever and however often, the
first token found is the one of the literal that the text suggests. -/
theorem firstToken_eq (complete : ∀ l, l ∈ literals) (s : List Char) :
    firstToken literals s =
      ((Literal.suggested s).recognize s).map fun x => (Literal.suggested s, x) := by
  cases found : firstToken literals s with
  | none =>
      have absent := List.findSome?_eq_none_iff.mp found _ (complete (Literal.suggested s))
      rw [Option.map_eq_none_iff] at absent
      rw [absent]
      rfl
  | some x =>
      obtain ⟨l, t, r⟩ := x
      have recognized := recognize_of_firstToken found
      rw [Literal.suggested_of_recognize recognized, recognized]
      rfl

theorem firstToken_perm (perm : literals.Perm Literal.standard) :
    firstToken literals = firstToken Literal.standard := by
  funext s
  have complete : ∀ l, l ∈ literals := fun l => perm.mem_iff.mpr (Literal.mem_standard l)
  rw [firstToken_eq complete, firstToken_eq Literal.mem_standard]

end Chain

/-! ## Reading does not depend on the order

Which token is read next is decided before an object lookup is asked. Two lists
that find the same tokens ask the same questions in the same order, so that a
lookup cannot tell them apart even if it remembers what it was asked.
-/

section Reading

variable {m : Type → Type} [Monad m] {literals others : List Literal}

theorem readFirstM_congr (same : firstToken literals = firstToken others)
    (ask : String → m (Option Entity)) (s : List Char) :
    readFirstM ask literals s = readFirstM ask others s := by
  simp only [readFirstM, same]

theorem readAllM_congr (same : firstToken literals = firstToken others)
    (ask : String → m (Option Entity)) (s : List Char) :
    readAllM ask literals s = readAllM ask others s := by
  fun_induction readAllM ask literals s with
  | case1 s start => exact (readAllM_of_blank start).symm
  | case2 s c cs start none => exact (readAllM_of_unrecognized start (same ▸ none)).symm
  | case3 s c cs start l t r found ih =>
      rw [readAllM_of_token start (same ▸ found)]
      simp only [ih]

theorem parseParametersM_congr (same : firstToken literals = firstToken others)
    (ask : String → m (Option Entity)) (s : List Char) :
    parseParametersM ask literals s = parseParametersM ask others s := by
  rw [parseParametersM, parseParametersM, readAllM_congr same]

end Reading

/-- At most one literal is recognized at the start of a text. Reading gives the
same result with the literals in any other order, and has the same effects. -/
theorem recognition_unambiguous :
    (∀ s, (Literal.standard.filter fun l => (l.recognize s).isSome).length ≤ 1) ∧
    ∀ literals : List Literal, literals.Perm Literal.standard →
      (∀ (find : ObjectLookup) (s : List Char),
        readFirst find literals s = readFirst find Literal.standard s ∧
        parseParameters find literals s = parseParameters find Literal.standard s) ∧
      ∀ (m : Type → Type) [Monad m] (ask : String → m (Option Entity)) (s : List Char),
        readFirstM ask literals s = readFirstM ask Literal.standard s ∧
        parseParametersM ask literals s = parseParametersM ask Literal.standard s := by
  refine ⟨Literal.length_recognizing_le_one, ?_⟩
  intro literals perm
  have same := firstToken_perm perm
  constructor
  · intro find s
    exact ⟨readFirstM_congr (m := Id) same find s, parseParametersM_congr (m := Id) same find s⟩
  · intro m _ ask s
    exact ⟨readFirstM_congr same ask s, parseParametersM_congr same ask s⟩

/-- Names come first in the reversed list, and a reserved word is still none. -/
theorem recognition_unambiguous_reversed :
    Literal.standard.reverse.Perm Literal.standard ∧
      readFirst (fun _ => none) Literal.standard.reverse "Null red".toList =
        .ok (some (⟨.null, []⟩, "Null".toList)) ∧
      parseParameters (fun _ => none) Literal.standard.reverse "Null red".toList =
        parseParameters (fun _ => none) Literal.standard "Null red".toList := by
  have perm : Literal.standard.reverse.Perm Literal.standard := List.reverse_perm _
  obtain ⟨first, all⟩ :=
    (recognition_unambiguous.2 _ perm).1 (fun _ => none) "Null red".toList
  have found : firstToken Literal.standard "Null red".toList =
      some (.null, "Null".toList, " red".toList) := by
    decide +kernel
  refine ⟨perm, ?_, all⟩
  rw [first, readFirst, readFirstM, found]
  rfl

end CommandConsole
