import CommandConsole.Proofs.Files.Writing
import CommandConsole.Proofs.Record.Parts
import CommandConsole.Settings.Storage

/-!
# Saved settings load back

The text of settings is read as these settings, whatever they are, and a text
that leaves some of the fields out is read with the defaults in their place.

A field with a value is an assignment to what a text gives. A line of the text
makes one assignment, whatever is written behind it, because the comma at its
end can belong neither to a number nor to a quoted character. A text is read
assignment by assignment, in the order in which they stand.
-/

namespace CommandConsole.Settings

open Record

/-- One field of settings with a value for it. -/
inductive Assignment where
  | maxHistory (n : UInt64)
  | executionSymbol (c : Char)
  | matchThreshold (n : UInt64)

/-- All fields with the values they have. -/
def assignments (s : Settings) : List Assignment :=
  [.maxHistory s.maxHistory, .executionSymbol s.executionSymbol, .matchThreshold s.matchThreshold]

namespace Assignment

def name : Assignment → List Char
  | maxHistory _ => "max_history".toList
  | executionSymbol _ => "execution_symbol".toList
  | matchThreshold _ => "match_threshold".toList

/-- The value as it is written. -/
def value : Assignment → List Char
  | maxHistory n | matchThreshold n => decimalDigits n.toNat
  | executionSymbol c => quote c

/-- The name and the value as they are written. -/
def field (a : Assignment) : List Char × List Char := (a.name, a.value)

def into : Assignment → Given → Given
  | maxHistory n, g => { g with maxHistory := some n }
  | executionSymbol c, g => { g with executionSymbol := some c }
  | matchThreshold n, g => { g with matchThreshold := some n }

/-- The field has not been given before. -/
def IsNewTo : Assignment → Given → Prop
  | maxHistory _, g => g.maxHistory = none
  | executionSymbol _, g => g.executionSymbol = none
  | matchThreshold _, g => g.matchThreshold = none

variable {a b : Assignment} {g : Given}

theorem isNewTo_empty (a : Assignment) : a.IsNewTo {} := by
  cases a <;> rfl

theorem isNewTo_into (apart : a.name ≠ b.name) (new : b.IsNewTo g) : b.IsNewTo (a.into g) := by
  cases a <;> cases b <;> first | exact new | exact absurd rfl apart

/-- Every value is read as it was written, if its field is new. -/
theorem readField_value (new : a.IsNewTo g) (sw : Switches) (r : List Char) :
    readField sw g a.name (a.value ++ ',' :: r) = some (a.into g, ',' :: r) := by
  cases a with
  | maxHistory n =>
      have missing : g.maxHistory = none := new
      change readField sw g "max_history".toList (decimalDigits n.toNat ++ ',' :: r) =
        some ({ g with maxHistory := some n }, ',' :: r)
      rw [readField, if_pos rfl, missing, word64?_digits]
      rfl
  | executionSymbol c =>
      have missing : g.executionSymbol = none := new
      change readField sw g "execution_symbol".toList (quote c ++ ',' :: r) =
        some ({ g with executionSymbol := some c }, ',' :: r)
      rw [readField, if_neg (by decide), if_pos rfl, missing, quotedCharacter?_quote]
      rfl
  | matchThreshold n =>
      have missing : g.matchThreshold = none := new
      change readField sw g "match_threshold".toList (decimalDigits n.toNat ++ ',' :: r) =
        some ({ g with matchThreshold := some n }, ',' :: r)
      rw [readField, if_neg (by decide), if_neg (by decide), if_pos rfl, missing, word64?_digits]
      rfl

theorem word?_name (a : Assignment) (r : List Char) :
    word? (a.name ++ ':' :: r) = some (a.name, ':' :: r) := by
  cases a <;> rfl

/-- A name begins neither with space nor with the parenthesis that ends a record. -/
theorem exists_name_eq_cons (a : Assignment) :
    ∃ c r, a.name = c :: r ∧ isSpace c = false ∧ c ≠ '/' ∧ c ≠ ')' := by
  cases a <;> exact ⟨_, _, rfl, by decide⟩

theorem exists_value_eq_cons (a : Assignment) :
    ∃ c r, a.value = c :: r ∧ isSpace c = false ∧ c ≠ '/' := by
  cases a with
  | maxHistory n | matchThreshold n =>
      obtain ⟨nonempty, digits⟩ := decimalDigits_mem n.toNat
      obtain ⟨c, r, written⟩ := List.exists_cons_of_ne_nil nonempty
      have digit : c.isDigit = true := digits c (written ▸ List.mem_cons_self ..)
      exact ⟨c, r, written, isSpace_eq_false_of_isDigit digit, ne_of_isDigit digit rfl⟩
  | executionSymbol c =>
      by_cases special : (c = '\'' || c = '\\') = true
      · exact ⟨_, _, if_pos special, by decide⟩
      · exact ⟨_, _, if_neg special, by decide⟩

theorem skipColon_value (a : Assignment) (r : List Char) :
    skipColon (':' :: ' ' :: (a.value ++ r)) = some (a.value ++ r) := by
  obtain ⟨c, rest, written, solid, plain⟩ := exists_value_eq_cons a
  have solid := skipSpace_of_not_isSpace solid plain (rest ++ r)
  rw [written]
  exact solid

end Assignment

section Lines

variable {a : Assignment} {as : List Assignment} {g : Given}

/-- The rest of a record in front of fields that are still to come. -/
def linesText : List Assignment → List Char
  | [] => [')']
  | a :: as => "    ".toList ++ (a.name ++ ':' :: ' ' :: (a.value ++ ',' :: '\n' :: linesText as))

theorem recordText_eq (as : List Assignment) :
    recordText (as.map Assignment.field) = '(' :: '\n' :: linesText as := by
  rw [recordText, List.append_assoc]
  refine congrArg ("(\n".toList ++ ·) ?_
  induction as with
  | nil => rfl
  | cons a as ih =>
      rw [linesText, ← ih, List.map_cons, List.flatMap_cons]
      simp only [List.append_assoc]
      rfl

theorem skipSpace_linesText_cons (a : Assignment) (as : List Assignment) :
    skipSpace (linesText (a :: as)) =
      some (a.name ++ ':' :: ' ' :: (a.value ++ ',' :: '\n' :: linesText as)) := by
  obtain ⟨c, rest, written, solid, plain, -⟩ := a.exists_name_eq_cons
  rw [linesText, written]
  exact skipSpace_of_not_isSpace solid plain _

/-- Behind the space there is a part of the record, and no more space. -/
theorem exists_skipSpace_linesText (as : List Assignment) :
    ∃ t, skipSpace (linesText as) = some t ∧ skipSpace t = some t := by
  cases as with
  | nil => exact ⟨_, rfl, rfl⟩
  | cons a as =>
      have skipped := skipSpace_linesText_cons a as
      exact ⟨_, skipped, skipSpace_of_skip skipped⟩

theorem skipComma_linesText {t : List Char} (skipped : skipSpace (linesText as) = some t) :
    skipComma (',' :: '\n' :: linesText as) = some (true, t) := by
  have behind : skipSpace ('\n' :: linesText as) = some t := skipped
  have comma : skipSpace (',' :: '\n' :: linesText as) = some (',' :: '\n' :: linesText as) := rfl
  simp [skipComma, comma, behind]

/-- One line of a record makes one assignment. -/
theorem readFields_cons {s t : List Char} (new : a.IsNewTo g)
    (front : skipSpace s = skipSpace (linesText (a :: as)))
    (skipped : skipSpace (linesText as) = some t) (sw : Switches) (fuel : Nat) :
    readFields sw (fuel + 1) g true s = readFields sw fuel (a.into g) true t := by
  obtain ⟨c, rest, written, -, -, apart⟩ := a.exists_name_eq_cons
  rw [readFields, front, skipSpace_linesText_cons]
  simp only [Option.bind_eq_bind, Option.bind_some]
  split
  next ends =>
    rw [written] at ends
    exact absurd (List.cons.inj ends).1 apart
  next =>
    simp only [if_true, Assignment.word?_name, Assignment.skipColon_value,
      Assignment.readField_value new, skipComma_linesText skipped, Option.bind_some]

/-- The lines of a record make all of their assignments, one after the other. -/
theorem readFields_linesText (new : ∀ a ∈ as, a.IsNewTo g)
    (apart : (as.map Assignment.name).Nodup) {s : List Char}
    (front : skipSpace s = skipSpace (linesText as)) (sw : Switches) {fuel : Nat}
    (enough : as.length < fuel) :
    readFields sw fuel g true s = some (as.foldl (fun g a => a.into g) g, []) := by
  induction as generalizing g s fuel with
  | nil =>
      obtain ⟨fuel, rfl⟩ := Nat.exists_eq_succ_of_ne_zero (Nat.ne_of_gt enough)
      rw [readFields, front]
      rfl
  | cons a as ih =>
      obtain ⟨fuel, rfl⟩ := Nat.exists_eq_succ_of_ne_zero (Nat.ne_of_gt (Nat.zero_lt_of_lt enough))
      obtain ⟨t, skipped, settled⟩ := exists_skipSpace_linesText as
      obtain ⟨outside, apart⟩ := List.nodup_cons.mp apart
      have later : ∀ b ∈ as, b.IsNewTo (a.into g) := by
        intro b member
        have other : a.name ≠ b.name := by
          intro same
          exact outside (same ▸ List.mem_map_of_mem member)
        exact Assignment.isNewTo_into other (new b (List.mem_cons_of_mem a member))
      rw [Nat.succ_eq_add_one, readFields_cons (new a (List.mem_cons_self ..)) front skipped]
      exact ih later apart (settled.trans skipped.symm) (Nat.lt_of_succ_lt_succ enough)

theorem length_lt_linesText (as : List Assignment) : as.length < (linesText as).length := by
  induction as with
  | nil => exact Nat.zero_lt_one
  | cons a as ih =>
      simp only [linesText, List.length_append, List.length_cons]
      omega

/-- A record of assignments to different fields, in whatever order, is read as what they
make together. -/
theorem ofText?_recordText (apart : (as.map Assignment.name).Nodup) :
    ofText? (recordText (as.map Assignment.field)) =
      some (ofGiven (as.foldl (fun g a => a.into g) {})) := by
  have front : skipSpace ('\n' :: linesText as) = skipSpace (linesText as) := rfl
  have enough : as.length < ('(' :: '\n' :: linesText as).length + 1 :=
    Nat.lt_add_right 3 (length_lt_linesText as)
  have fields := readFields_linesText (fun a _ => a.isNewTo_empty) apart front {} enough
  -- Nothing stands in front of the parenthesis, neither space nor an attribute nor a name.
  have opened (r : List Char) : skipSpace ('(' :: r) = some ('(' :: r) := rfl
  have bare (fuel : Nat) (r : List Char) :
      readAttributes (fuel + 1) {} ('(' :: r) = some ({}, '(' :: r) := rfl
  have unnamed (r : List Char) :
      skipName ({} : Switches).namedRecord ('(' :: r) = some ('(' :: r) := rfl
  have ended : skipSpace [] = some [] := rfl
  rw [recordText_eq]
  simp only [ofText?, opened, bare, unnamed, fields, ended, Option.bind_eq_bind, Option.bind_some]

end Lines

/-- Settings of which some fields are kept, with the defaults for the others. -/
def keepOnly (s : Settings) (keep : List Char → Bool) : Settings where
  maxHistory := if keep "max_history".toList then s.maxHistory else ({} : Settings).maxHistory
  executionSymbol :=
    if keep "execution_symbol".toList then s.executionSymbol else ({} : Settings).executionSymbol
  matchThreshold :=
    if keep "match_threshold".toList then s.matchThreshold else ({} : Settings).matchThreshold

/-- The text of settings without the fields that are not kept. -/
def partialText (s : Settings) (keep : List Char → Bool) : String :=
  String.ofList (recordText (s.fields.filter fun field => keep field.1))

theorem partialText_all (s : Settings) : s.partialText (fun _ => true) = s.text := rfl

theorem keepOnly_all (s : Settings) : s.keepOnly (fun _ => true) = s := rfl

/-- What the kept assignments make together are the settings with the kept fields. -/
theorem ofGiven_keep (s : Settings) (keep : List Char → Bool) :
    ofGiven ((s.assignments.filter fun a => keep a.name).foldl (fun g a => a.into g) {}) =
      s.keepOnly keep := by
  -- With the names as the assignments tell them, both sides ask the same of `keep`.
  change _ = Settings.mk
    (if keep (Assignment.maxHistory s.maxHistory).name then _ else _)
    (if keep (Assignment.executionSymbol s.executionSymbol).name then _ else _)
    (if keep (Assignment.matchThreshold s.matchThreshold).name then _ else _)
  simp only [assignments, List.filter_cons, List.filter_nil]
  cases keep (Assignment.maxHistory s.maxHistory).name <;>
    cases keep (Assignment.executionSymbol s.executionSymbol).name <;>
    cases keep (Assignment.matchThreshold s.matchThreshold).name <;> rfl

theorem fields_eq (s : Settings) : s.fields = s.assignments.map Assignment.field := rfl

theorem ofText?_partialText (s : Settings) (keep : List Char → Bool) :
    ofText? (s.partialText keep).toList = some (s.keepOnly keep) := by
  have names : (s.assignments.map Assignment.name).Nodup := by
    change ["max_history".toList, "execution_symbol".toList, "match_threshold".toList].Nodup
    decide
  have apart : ((s.assignments.filter fun a => keep a.name).map Assignment.name).Nodup :=
    names.sublist (List.filter_sublist.map Assignment.name)
  rw [partialText, String.toList_ofList, fields_eq, List.filter_map, ← ofGiven_keep]
  exact ofText?_recordText apart

theorem ofText?_text (s : Settings) : ofText? s.text.toList = some s := by
  rw [← partialText_all, ofText?_partialText, keepOnly_all]

theorem load_of_read {fs : Files} {path text : String} {s : Settings}
    (there : fs.read path = .ok text) (reads : ofText? text.toList = some s) :
    load fs path = .ok s := by
  rw [load, there]
  simp only [reads]

/-- Saving succeeds by writing the text of the settings. -/
theorem exists_write_of_save {s : Settings} {fs fs' : Files} {path : String}
    (saved : s.save fs path = (fs', .ok ())) : ∃ fs₁ : Files, fs₁.write path s.text = .ok fs' := by
  simp only [save] at saved
  split at saved
  · cases saved
  next fs₁ _ =>
    split at saved
    next fs₂ written =>
      obtain rfl := (Prod.mk.inj saved).1
      exact ⟨fs₁, written⟩
    · cases saved

/-- Saved settings load back: whatever is saved is loaded from the files as saving leaves
them, and a file with a text that leaves fields out is loaded with exactly these fields at
their defaults. -/
theorem saved_settings_load_back (s : Settings) :
    ofText? s.text.toList = some s ∧
      (∀ (fs fs' : Files) (path : String), s.save fs path = (fs', .ok ()) →
        fs'.read path = .ok s.text ∧ load fs' path = .ok s ∧ loadOrDefault fs' path = s) ∧
      (∀ keep : List Char → Bool, ofText? (s.partialText keep).toList = some (s.keepOnly keep)) ∧
      (∀ (keep : List Char → Bool) (fs : Files) (path : String),
        fs.read path = .ok (s.partialText keep) → load fs path = .ok (s.keepOnly keep)) := by
  refine ⟨s.ofText?_text, ?_, s.ofText?_partialText, ?_⟩
  · intro fs fs' path saved
    obtain ⟨fs₁, written⟩ := exists_write_of_save saved
    have there : fs'.read path = .ok s.text := Files.read_of_write written
    have loaded : load fs' path = .ok s := load_of_read there s.ofText?_text
    refine ⟨there, loaded, ?_⟩
    rw [loadOrDefault, loaded]
  · intro keep fs path there
    exact load_of_read there (s.ofText?_partialText keep)

/-- A quote as the symbol and the greatest number, saved in a directory that is made first. -/
theorem saved_settings_load_back_quote :
    let s : Settings := ⟨18446744073709551615, '\'', 0⟩
    let fs : Files := ⟨[(["work"], .directory),
      (["work", "symbol.ron"], .file "(\n    execution_symbol: '\\'',\n)")]⟩
    let saved := s.save fs "settings/console.ron"
    saved.2 = .ok () ∧ load saved.1 "settings/console.ron" = .ok s ∧
      load fs "symbol.ron" = .ok ⟨100, '\'', 3⟩ := by
  intro s fs saved
  have done : saved.2 = .ok () := by rfl
  have there : fs.read "symbol.ron" = .ok (s.partialText (· = "execution_symbol".toList)) := by
    rfl
  obtain ⟨-, whole, -, part⟩ := saved_settings_load_back s
  exact ⟨done, (whole fs saved.1 _ (Prod.ext rfl done)).2.1, part _ fs _ there⟩

end CommandConsole.Settings
