import Mathlib.Logic.Function.Iterate
import CommandConsole.Proofs.Line.Edges

/-!
# What can be read

The parameters that can be read are sequences of tokens with blanks between
them. Every token is what the first literal of the list that recognizes anything
recognizes in the text that is left there, and the reading is unique. Where it
fails such a sequence comes to an end in front of a text that no literal
recognizes, or of a token without a value.

Reading goes in turns, one for each token and one for the end. Every turn takes
a token off the text, so there are at most as many turns as characters and one
more, whatever the literals are and in whatever order they are tried.
-/

namespace CommandConsole

open Text

/-- No token begins with a blank. -/
theorem Literal.leadsOutside_language (l : Literal) : LeadsOutside l.language isBlank := by
  have numberStart : LeadsOutside (runs1 Char.isDigit) isBlank :=
    .runs1 fun _ digit => isBlank_eq_false_of_isDigit digit
  cases l with
  | null =>
      refine .mul (.single fun c initial => ?_)
      simp only [Bool.or_eq_true, decide_eq_true_eq] at initial
      obtain rfl | rfl := initial <;> rfl
  | float => exact .one_add_mul (.word rfl) numberStart.mul
  | string => exact .mul (.word rfl)
  | bool =>
      refine .add (.mul (.single fun c initial => ?_)) (.mul (.single fun c initial => ?_))
      all_goals
        simp only [Bool.or_eq_true, decide_eq_true_eq] at initial
        obtain rfl | rfl := initial <;> rfl
  | char => exact .mul (.word rfl)
  | int => exact .one_add_mul (.word rfl) numberStart
  | tuple shape =>
      cases shape with
      | rgb => exact .mul (.word (c := 'r') (w := ['g', 'b']) rfl)
      | rgba => exact .mul (.word (c := 'r') (w := ['g', 'b', 'a']) rfl)
      | vec2 | vec3 | vec4 =>
          show LeadsOutside (1 * _) isBlank
          rw [one_mul]
          exact .mul (.word rfl)
  | color =>
      have words : LeadsOutside (runs1 Char.isAlpha) isBlank :=
        .runs1 fun _ letter => isBlank_eq_false_of_isAlpha letter
      have hex : LeadsOutside ({['#']} * runs1 isHexDigit) isBlank := .mul (.word rfl)
      exact .add (hex.mono inf_le_left) (words.mono fun _ named => letters_of_isColorName named)
  | object => exact .mul (.word rfl)
  | varName =>
      intro t valid
      obtain ⟨c, u, rfl, letter, -⟩ := exists_cons_of_isValid valid
      exact ⟨c, u, rfl, isBlank_eq_false_of_isAlpha letter⟩

/-- A token as it was read: with the blanks in front of it, by a literal, with a meaning. -/
structure Piece where
  gap : List Char
  token : List Char
  literal : Literal
  meaning : Meaning

namespace Piece

/-- The text of some pieces, with something behind it. -/
def text : List Piece → List Char → List Char
  | [], rest => rest
  | p :: ps, rest => p.gap ++ (p.token ++ text ps rest)

theorem suffix_text (ps : List Piece) (rest : List Char) : rest <:+ text ps rest := by
  induction ps with
  | nil => exact List.suffix_rfl
  | cons p ps ih => exact (ih.trans (List.suffix_append _ _)).trans (List.suffix_append _ _)

end Piece

/-- Of a list of literals, this is the first that recognizes anything, and it recognizes the
token. -/
def AcceptedFirst (literals : List Literal) (l : Literal) (t r : List Char) : Prop :=
  ∃ earlier later, literals = earlier ++ l :: later ∧
    (∀ k ∈ earlier, k.recognize (t ++ r) = none) ∧ l.recognize (t ++ r) = some (t, r)

/-- A piece is read as it says in front of a text. -/
structure Piece.Accepted (find : ObjectLookup) (literals : List Literal) (p : Piece)
    (r : List Char) : Prop where
  blank : ∀ c ∈ p.gap, isBlank c = true
  first : AcceptedFirst literals p.literal p.token r
  value : p.literal.read find p.token = .ok p.meaning

/-- Pieces that are read one behind the other in front of a text, with blanks between them. -/
inductive Sequence (find : ObjectLookup) (literals : List Literal) (rest : List Char) :
    List Piece → Prop
  | nil : Sequence find literals rest []
  | cons {p : Piece} {ps : List Piece} (accepted : p.Accepted find literals (Piece.text ps rest))
      (apart : ∀ q ∈ ps.head?, q.gap ≠ []) (others : Sequence find literals rest ps) :
      Sequence find literals rest (p :: ps)

section Tokens

variable {literals : List Literal} {l : Literal} {s t r : List Char}

theorem acceptedFirst_iff : AcceptedFirst literals l t r ↔
    firstToken literals (t ++ r) = some (l, t, r) := by
  rw [firstToken, List.findSome?_eq_some_iff]
  constructor
  · rintro ⟨earlier, later, rfl, none, found⟩
    refine ⟨earlier, l, later, rfl, by rw [found]; rfl, fun k member => ?_⟩
    rw [none k member]
    rfl
  · rintro ⟨earlier, k, later, rfl, found, none⟩
    obtain ⟨x, found, e⟩ := Option.map_eq_some_iff.mp found
    obtain ⟨rfl, rfl⟩ := Prod.mk.inj e
    exact ⟨earlier, later, rfl, fun k member => Option.map_eq_none_iff.mp (none k member), found⟩

theorem acceptedFirst_of_firstToken (found : firstToken literals s = some (l, t, r)) :
    s = t ++ r ∧ AcceptedFirst literals l t r := by
  obtain rfl := Literal.recognize_eq_append (recognize_of_firstToken found)
  exact ⟨rfl, acceptedFirst_iff.mpr found⟩

theorem firstToken_eq_none_iff :
    firstToken literals s = none ↔ ∀ l ∈ literals, l.recognize s = none := by
  simp only [firstToken, List.findSome?_eq_none_iff, Option.map_eq_none_iff]

/-- An accepted token begins with a character that is not skipped. -/
theorem AcceptedFirst.exists_cons (accepted : AcceptedFirst literals l t r) :
    ∃ c u, t = c :: u ∧ isBlank c = false := by
  obtain ⟨-, -, -, -, found⟩ := accepted
  exact l.leadsOutside_language t (Literal.recognize_eq_some_iff.mp found).2.1

theorem AcceptedFirst.atBoundary (accepted : AcceptedFirst literals l t r) :
    atBoundary r = true := by
  obtain ⟨-, -, -, -, found⟩ := accepted
  exact Literal.atBoundary_of_recognize found

theorem trimStart_gap_append {gap : List Char} {c : Char} (blank : ∀ c ∈ gap, isBlank c = true)
    (visible : isBlank c = false) (u : List Char) : trimStart (gap ++ c :: u) = c :: u := by
  rw [trimStart_append_of_blank blank]
  exact List.dropWhile_cons_of_neg (by simp [visible])

/-- What is skipped of a text are the blanks that it begins with. -/
theorem exists_gap (s : List Char) :
    ∃ gap, (∀ c ∈ gap, isBlank c = true) ∧ s = gap ++ trimStart s :=
  ⟨s.takeWhile isBlank, fun _ member => List.mem_takeWhile_imp (p := isBlank) member,
    List.takeWhile_append_dropWhile.symm⟩

end Tokens

section Reading

variable {find : ObjectLookup} {literals : List Literal} {rest s : List Char}

/-- A piece is read and its meaning comes in front of what is read behind it. -/
theorem readAll_of_accepted {p : Piece} (accepted : p.Accepted find literals rest) :
    readAll find literals (p.gap ++ (p.token ++ rest)) =
      (readAll find literals rest).map (p.meaning :: ·) := by
  obtain ⟨c, u, token, visible⟩ := accepted.first.exists_cons
  have found := acceptedFirst_iff.mp accepted.first
  rw [token, List.cons_append] at found ⊢
  rw [readAll_of_token (trimStart_gap_append accepted.blank visible _) found, ← token,
    accepted.value]
  cases readAll find literals rest <;> rfl

/-- Only blanks follow a boundary, and no token begins with one. -/
theorem Sequence.head_gap_ne_nil {ps : List Piece} (sequence : Sequence find literals rest ps)
    (boundary : atBoundary (Piece.text ps rest) = true) : ∀ q ∈ ps.head?, q.gap ≠ [] := by
  cases sequence with
  | nil => simp
  | @cons p ps accepted apart others =>
      rintro q ⟨⟩ close
      obtain ⟨c, u, token, visible⟩ := accepted.first.exists_cons
      rw [Piece.text, close, List.nil_append, token] at boundary
      exact Bool.false_ne_true (visible.symm.trans boundary)

/-- Pieces are read before what stands behind them. -/
theorem Sequence.readAll_text {ps : List Piece} (sequence : Sequence find literals rest ps) :
    readAll find literals (Piece.text ps rest) =
      (readAll find literals rest).map (ps.map (·.meaning) ++ ·) := by
  induction sequence with
  | nil =>
      rw [Piece.text]
      cases readAll find literals rest <;> rfl
  | cons accepted apart others ih =>
      rw [Piece.text, readAll_of_accepted accepted, ih]
      cases readAll find literals rest <;> rfl

/-- How reading comes to an end: in blanks, in front of a text that no literal recognizes, or of
a token without a value. -/
inductive Stop (find : ObjectLookup) (literals : List Literal) :
    List Char → Except ParseError (List Meaning) → Prop
  | blank {back : List Char} (all : ∀ c ∈ back, isBlank c = true) :
      Stop find literals back (.ok [])
  | unrecognized {gap u : List Char} {c : Char} (all : ∀ c ∈ gap, isBlank c = true)
      (visible : isBlank c = false) (none : ∀ l ∈ literals, l.recognize (c :: u) = none) :
      Stop find literals (gap ++ c :: u) (.error (.unrecognized (String.ofList (c :: u))))
  | conversion {gap t r : List Char} {l : Literal} {e : ConversionError}
      (all : ∀ c ∈ gap, isBlank c = true) (first : AcceptedFirst literals l t r)
      (failed : l.read find t = .error e) :
      Stop find literals (gap ++ (t ++ r)) (.error (.conversion e))

theorem Stop.readAll_eq {result : Except ParseError (List Meaning)}
    (stop : Stop find literals rest result) : readAll find literals rest = result := by
  cases stop with
  | blank all => exact readAll_of_blank (trimStart_eq_nil_iff.mpr all)
  | unrecognized all visible none =>
      exact readAll_of_unrecognized (trimStart_gap_append all visible _)
        (firstToken_eq_none_iff.mpr none)
  | conversion all first failed =>
      obtain ⟨c, u, token, visible⟩ := first.exists_cons
      have found := acceptedFirst_iff.mp first
      rw [token, List.cons_append] at found ⊢
      rw [readAll_of_token (trimStart_gap_append all visible _) found, ← token, failed]

/-- Every text is a sequence of pieces up to where reading comes to its end. -/
theorem exists_sequence (find : ObjectLookup) (literals : List Literal) (s : List Char) :
    ∃ ps rest result, s = Piece.text ps rest ∧ Sequence find literals rest ps ∧
      Stop find literals rest result := by
  induction s using readAllM.induct literals with
  | case1 s start => exact ⟨[], s, _, rfl, .nil, .blank (trimStart_eq_nil_iff.mp start)⟩
  | case2 s c cs start none =>
      obtain ⟨gap, all, split⟩ := exists_gap s
      rw [start] at split
      exact ⟨[], gap ++ c :: cs, _, split, .nil,
        .unrecognized all (head_trimStart start) (firstToken_eq_none_iff.mp none)⟩
  | case3 s c cs start l t r found ih =>
      obtain ⟨gap, all, split⟩ := exists_gap s
      obtain ⟨parts, first⟩ := acceptedFirst_of_firstToken found
      rw [start, parts] at split
      cases value : l.read find t with
      | error e => exact ⟨[], gap ++ (t ++ r), _, split, .nil, .conversion all first value⟩
      | ok d =>
          obtain ⟨ps, rest, result, rfl, others, stop⟩ := ih
          have apart := others.head_gap_ne_nil (first.atBoundary)
          exact ⟨⟨gap, t, l, d⟩ :: ps, rest, result, split,
            .cons ⟨all, first, value⟩ apart others, stop⟩

end Reading

section Parameters

variable {find : ObjectLookup} {literals : List Literal} {s : List Char}

theorem Sequence.parseParameters_text {ps : List Piece} {rest : List Char}
    {result : Except ParseError (List Meaning)} (sequence : Sequence find literals rest ps)
    (stop : Stop find literals rest result) :
    parseParameters find literals (Piece.text ps rest) =
      result.map fun ds => .ofMeanings (ps.map (·.meaning) ++ ds) := by
  rw [parseParameters_eq, sequence.readAll_text, stop.readAll_eq]
  cases result <;> rfl

theorem parseParameters_eq_ok_iff {a : Parameters} :
    parseParameters find literals s = .ok a ↔
      ∃ ps back, s = Piece.text ps back ∧ Sequence find literals back ps ∧
        (∀ c ∈ back, isBlank c = true) ∧ a = .ofMeanings (ps.map (·.meaning)) := by
  constructor
  · intro read
    obtain ⟨ps, rest, result, rfl, sequence, stop⟩ := exists_sequence find literals s
    rw [sequence.parseParameters_text stop] at read
    cases stop with
    | blank all =>
        obtain rfl := Except.ok.inj read
        exact ⟨ps, rest, rfl, sequence, all, by simp only [List.append_nil]⟩
    | unrecognized all visible none => cases read
    | conversion all first failed => cases read
  · rintro ⟨ps, back, rfl, sequence, all, rfl⟩
    rw [sequence.parseParameters_text (.blank all)]
    simp only [Except.map, List.append_nil]

theorem parseParameters_eq_unrecognized_iff {r : List Char} :
    parseParameters find literals s = .error (.unrecognized (String.ofList r)) ↔
      ∃ ps gap, s = Piece.text ps (gap ++ r) ∧ Sequence find literals (gap ++ r) ps ∧
        (∀ c ∈ gap, isBlank c = true) ∧ (∃ c u, r = c :: u ∧ isBlank c = false) ∧
        ∀ l ∈ literals, l.recognize r = none := by
  constructor
  · intro read
    obtain ⟨ps, rest, result, rfl, sequence, stop⟩ := exists_sequence find literals s
    rw [sequence.parseParameters_text stop] at read
    cases stop with
    | blank all => cases read
    | @unrecognized gap u c all visible none =>
        obtain rfl : c :: u = r :=
          String.ofList_injective (ParseError.unrecognized.inj (Except.error.inj read))
        exact ⟨ps, gap, rfl, sequence, all, ⟨c, u, rfl, visible⟩, none⟩
    | conversion all first failed => cases read
  · rintro ⟨ps, gap, rfl, sequence, all, ⟨c, u, rfl, visible⟩, none⟩
    rw [sequence.parseParameters_text (.unrecognized all visible none)]
    rfl

theorem parseParameters_eq_conversion_iff {e : ConversionError} :
    parseParameters find literals s = .error (.conversion e) ↔
      ∃ ps gap l t r, s = Piece.text ps (gap ++ (t ++ r)) ∧
        Sequence find literals (gap ++ (t ++ r)) ps ∧ (∀ c ∈ gap, isBlank c = true) ∧
        AcceptedFirst literals l t r ∧ l.read find t = .error e := by
  constructor
  · intro read
    obtain ⟨ps, rest, result, rfl, sequence, stop⟩ := exists_sequence find literals s
    rw [sequence.parseParameters_text stop] at read
    cases stop with
    | blank all => cases read
    | unrecognized all visible none => cases read
    | @conversion gap t r l e' all first failed =>
        obtain rfl := ParseError.conversion.inj (Except.error.inj read)
        exact ⟨ps, gap, l, t, r, rfl, sequence, all, first, failed⟩
  · rintro ⟨ps, gap, l, t, r, rfl, sequence, all, first, failed⟩
    rw [sequence.parseParameters_text (.conversion all first failed)]
    rfl

end Parameters

/-- Where the loop that reads parameters stands: in front of a rest, with the meanings of what is
behind it, or at its end. -/
inductive LoopState where
  | reading (rest : List Char) (meanings : List Meaning)
  | ended (result : Except ParseError Parameters)

/-- One turn: blanks are skipped, and the first token is taken off what is left. -/
def LoopState.turn (find : ObjectLookup) (literals : List Literal) : LoopState → LoopState
  | ended result => ended result
  | reading rest meanings =>
    match trimStart rest with
    | [] => ended (.ok (.ofMeanings meanings))
    | c :: cs =>
      match readFirst find literals (c :: cs) with
      | .error e => ended (.error (.conversion e))
      | .ok none => ended (.error (.unrecognized (String.ofList (c :: cs))))
      | .ok (some (d, t)) => reading ((c :: cs).drop t.length) (meanings ++ [d])

section Loop

variable {find : ObjectLookup} {literals : List Literal} {s : List Char} {n : Nat}

theorem readFirst_of_firstToken (find : ObjectLookup) {t r : List Char} {l : Literal}
    (found : firstToken literals s = some (l, t, r)) :
    readFirst find literals s = (l.read find t).map fun d => some (d, t) := by
  rw [← l.readM_id find t, readFirst, readFirstM, found]
  rfl

theorem LoopState.iterate_turn_ended (result : Except ParseError Parameters) (n : Nat) :
    (turn find literals)^[n] (ended result) = ended result :=
  Function.iterate_fixed rfl n

/-- The loop has come to its end after any number of turns above the length of the text. -/
theorem LoopState.iterate_turn (meanings : List Meaning) (enough : s.length < n) :
    (turn find literals)^[n] (reading s meanings) =
      ended ((readAll find literals s).map fun ds => .ofMeanings (meanings ++ ds)) := by
  -- Along the tokens; every turn takes one off, so the rest needs one turn less.
  induction s using readAllM.induct literals generalizing meanings n with
  | case1 s start =>
      obtain ⟨n, rfl⟩ := Nat.exists_eq_add_of_lt enough
      rw [Function.iterate_succ_apply, readAll_of_blank start, turn, start, iterate_turn_ended]
      simp [Except.map]
  | case2 s c cs start none =>
      obtain ⟨n, rfl⟩ := Nat.exists_eq_add_of_lt enough
      have first : readFirst find literals (c :: cs) = .ok Option.none := by
        rw [readFirst, readFirstM, none]
        rfl
      simp only [Function.iterate_succ_apply, readAll_of_unrecognized start none, turn, start,
        first, iterate_turn_ended, Except.map]
  | case3 s c cs start l t r found ih =>
      obtain ⟨n, rfl⟩ := Nat.exists_eq_add_of_lt enough
      have first := readFirst_of_firstToken find found
      obtain ⟨parts, -⟩ := acceptedFirst_of_firstToken found
      have shorter : r.length < s.length + n := by
        have := Literal.length_rest_lt_of_recognize (recognize_of_firstToken found)
        have := length_trimStart_le s
        rw [start] at this
        omega
      rw [Function.iterate_succ_apply, readAll_of_token start found, turn, start]
      simp only [first]
      cases value : l.read find t with
      | error e =>
          simp only [Except.map]
          exact iterate_turn_ended _ _
      | ok d =>
          simp only [Except.map, parts, List.drop_left]
          rw [ih (meanings ++ [d]) shorter]
          cases readAll find literals r <;> simp [Except.map]

end Loop

/-- Parameters are read in at most one turn more than there are characters. They are read if and
only if they are tokens with blanks between them, each of them what the first literal that
recognizes anything accepts in front of what follows, and then the values are theirs. A text is
not recognized, or a token has no value, if and only if it comes behind such tokens. -/
theorem parseParameters_iff_sequence (find : ObjectLookup) (literals : List Literal)
    (s : List Char) :
    (∀ n, s.length < n → (LoopState.turn find literals)^[n] (.reading s []) =
      .ended (parseParameters find literals s)) ∧
    (∀ a, parseParameters find literals s = .ok a ↔
      ∃ ps back, s = Piece.text ps back ∧ Sequence find literals back ps ∧
        (∀ c ∈ back, isBlank c = true) ∧ a = .ofMeanings (ps.map (·.meaning))) ∧
    (∀ r, parseParameters find literals s = .error (.unrecognized (String.ofList r)) ↔
      ∃ ps gap, s = Piece.text ps (gap ++ r) ∧ Sequence find literals (gap ++ r) ps ∧
        (∀ c ∈ gap, isBlank c = true) ∧ r <:+ s ∧ (∃ c u, r = c :: u ∧ isBlank c = false) ∧
        ∀ l ∈ literals, l.recognize r = none) ∧
    ∀ e, parseParameters find literals s = .error (.conversion e) ↔
      ∃ ps gap l t r, s = Piece.text ps (gap ++ (t ++ r)) ∧
        Sequence find literals (gap ++ (t ++ r)) ps ∧ (∀ c ∈ gap, isBlank c = true) ∧
        AcceptedFirst literals l t r ∧ l.read find t = .error e := by
  refine ⟨fun n enough => ?_, fun a => parseParameters_eq_ok_iff, fun r => ?_,
    fun e => parseParameters_eq_conversion_iff⟩
  · rw [LoopState.iterate_turn [] enough, parseParameters_eq]
    rfl
  · rw [parseParameters_eq_unrecognized_iff]
    constructor
    · rintro ⟨ps, gap, rfl, sequence, all, visible, none⟩
      have behind : r <:+ Piece.text ps (gap ++ r) :=
        (List.suffix_append gap r).trans (Piece.suffix_text ps _)
      exact ⟨ps, gap, rfl, sequence, all, behind, visible, none⟩
    · rintro ⟨ps, gap, whole, sequence, all, -, visible, none⟩
      exact ⟨ps, gap, whole, sequence, all, visible, none⟩

/-- A list of literals without decimals, in which integers are listed twice, stops at a decimal. -/
theorem parseParameters_iff_sequence_without_decimals :
    let literals : List Literal := [.varName, .int, .string, .int]
    let s := [' ', '7', '\t', '"', '"', ' ', '3', '.', '5']
    s.length < 10 ∧
      parseParameters (fun _ => none) literals s = .error (.unrecognized "3.5") ∧
      (LoopState.turn (fun _ => none) literals)^[10] (.reading s []) =
        .ended (.error (.unrecognized "3.5")) := by
  intro literals s
  have short : s.length < 10 := by decide
  obtain ⟨turns, -, unread, -⟩ := parseParameters_iff_sequence (fun _ => none) literals s
  have quoted : Piece.Accepted (fun _ => none) literals
      ⟨['\t'], ['"', '"'], .string, ⟨.string "", []⟩⟩ [' ', '3', '.', '5'] :=
    ⟨by simp [isBlank], acceptedFirst_iff.mpr (by decide), rfl⟩
  have seven : Piece.Accepted (fun _ => none) literals ⟨[' '], ['7'], .int, ⟨.int 7, []⟩⟩
      ['\t', '"', '"', ' ', '3', '.', '5'] :=
    ⟨by simp [isBlank], acceptedFirst_iff.mpr (by decide), rfl⟩
  have read : Sequence (fun _ => none) literals [' ', '3', '.', '5'] [_, _] :=
    .cons seven (by simp) (.cons quoted (by simp) .nil)
  have failed : parseParameters (fun _ => none) literals s = .error (.unrecognized "3.5") :=
    (unread ['3', '.', '5']).mpr ⟨_, [' '], rfl, read, by simp [isBlank],
      ⟨[' ', '7', '\t', '"', '"', ' '], rfl⟩, ⟨'3', _, rfl, rfl⟩, by decide⟩
  have ended := turns 10 short
  rw [failed] at ended
  exact ⟨short, failed, ended⟩

end CommandConsole
