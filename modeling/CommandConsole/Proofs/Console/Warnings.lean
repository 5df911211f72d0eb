import CommandConsole.Proofs.Command.Acceptance
import CommandConsole.Proofs.Console.Containment
import CommandConsole.Proofs.Handler.LogUse
import CommandConsole.Proofs.Line.TokenSequence

/-!
# Missed references

A reference to an object that is not found raises a warning when it is read. The
warnings that are raised are known from the pieces that are read: one for each
reference that finds nothing, in the order of the pieces, however many of them
there are in front of the place where reading stops.

These warnings are shown behind the echo of the line, whatever becomes of the
line afterwards, unless a handler takes them out of the log again, and with one
exception. If the parameters cannot be read to their end, none of them is shown.
-/

namespace CommandConsole

open Text

/-- The name that a piece refers to, if it is an object reference. -/
def Piece.reference? (p : Piece) : Option String :=
  if p.literal = .object then some (String.ofList (innerText p.token)) else none

/-- The names of references that find nothing, in order. -/
def missedNames (find : ObjectLookup) (ps : List Piece) : List String :=
  (ps.filterMap Piece.reference?).filter fun name => (find name).isNone

/-- A text is read as some pieces, up to where reading stops. -/
def ReadAs (find : ObjectLookup) (literals : List Literal) (s : List Char) (ps : List Piece) :
    Prop :=
  ∃ rest result, s = Piece.text ps rest ∧ Sequence find literals rest ps ∧
    Stop find literals rest result

section Raised

variable {find : ObjectLookup} {literals : List Literal} {s rest : List Char} {ps : List Piece}

theorem missedNames_cons (find : ObjectLookup) (p : Piece) (ps : List Piece) :
    missedNames find (p :: ps) = missedNames find [p] ++ missedNames find ps := by
  rw [← List.singleton_append, missedNames, List.filterMap_append, List.filter_append]
  rfl

theorem exists_readAs (find : ObjectLookup) (literals : List Literal) (s : List Char) :
    ∃ ps, ReadAs find literals s ps := by
  obtain ⟨ps, rest, result, text, sequence, stop⟩ := exists_sequence find literals s
  exact ⟨ps, rest, result, text, sequence, stop⟩

/-- Raised warnings are noted behind those that are there. -/
theorem run_readAllM_raising_eq (raised : List Warning) :
    (readAllM (raising find) literals s).run raised =
      pure (readAll find literals s, raised ++ raisedWarnings find literals s) := by
  obtain ⟨missed, notes, -⟩ := run_readAllM_raising find literals s
  have same : raisedWarnings find literals s = missed := by
    rw [raisedWarnings, parseParametersM]
    simp [notes]
    rfl
  rw [notes, same]

theorem raisedWarnings_eq (find : ObjectLookup) (literals : List Literal) (s : List Char) :
    raisedWarnings find literals s = ((readAllM (raising find) literals s).run []).2 := by
  rw [run_readAllM_raising_eq]
  rfl

/-- A piece raises a warning exactly if it is a reference that finds nothing. -/
theorem Piece.Accepted.warnings_eq {p : Piece} (accepted : p.Accepted find literals rest) :
    p.meaning.warnings = (missedNames find [p]).map .unknownObject := by
  have value := accepted.value
  by_cases asks : p.literal = .object
  · rw [asks, Literal.read] at value
    cases found : find (String.ofList (innerText p.token)) with
    | some object =>
        simp only [found] at value
        rw [← Except.ok.inj value]
        simp [missedNames, reference?, asks, found]
    | none =>
        simp only [found] at value
        rw [← Except.ok.inj value]
        simp [missedNames, reference?, asks, found]
  · rw [Literal.warnings_read asks value]
    simp [missedNames, reference?, asks]

theorem raisedWarnings_of_accepted {p : Piece} (accepted : p.Accepted find literals rest) :
    raisedWarnings find literals (p.gap ++ (p.token ++ rest)) =
      p.meaning.warnings ++ raisedWarnings find literals rest := by
  obtain ⟨c, u, token, visible⟩ := accepted.first.exists_cons
  have found := acceptedFirst_iff.mp accepted.first
  have first := @Literal.run_readM_raising find p.token p.literal []
  rw [token, List.cons_append] at found ⊢
  rw [raisedWarnings_eq,
    readAllM_of_token (trimStart_gap_append accepted.blank visible _) found, ← token]
  simp only [accepted.value] at first
  simp only [StateT.run_bind, first, pure_bind, run_readAllM_raising_eq]
  cases readAll find literals rest <;> rfl

theorem Stop.raisedWarnings_eq_nil {result : Except ParseError (List Meaning)}
    (stop : Stop find literals rest result) : raisedWarnings find literals rest = [] := by
  cases stop with
  | blank all =>
      rw [raisedWarnings_eq, readAllM_of_blank (trimStart_eq_nil_iff.mpr all)]
      rfl
  | unrecognized all visible none =>
      rw [raisedWarnings_eq, readAllM_of_unrecognized (trimStart_gap_append all visible _)
        (firstToken_eq_none_iff.mpr none)]
      rfl
  | @conversion gap t r l e all first failed =>
      obtain ⟨c, u, token, visible⟩ := first.exists_cons
      have found := acceptedFirst_iff.mp first
      have reading := @Literal.run_readM_raising find t l []
      rw [token, List.cons_append] at found ⊢
      rw [raisedWarnings_eq, readAllM_of_token (trimStart_gap_append all visible _) found, ← token]
      simp only [failed] at reading
      simp only [StateT.run_bind, reading, pure_bind]
      rfl

/-- One warning is raised for each reference that finds nothing, in the order of the pieces. -/
theorem ReadAs.raisedWarnings_eq (read : ReadAs find literals s ps) :
    raisedWarnings find literals s = (missedNames find ps).map .unknownObject := by
  obtain ⟨rest, result, rfl, sequence, stop⟩ := read
  induction sequence with
  | nil => exact stop.raisedWarnings_eq_nil
  | @cons p ps accepted apart others ih =>
      rw [Piece.text, raisedWarnings_of_accepted accepted, ih, accepted.warnings_eq,
        missedNames_cons find p ps, List.map_append]

end Raised

namespace Console

/-- A line that was run is told of in the log: by its echo, the given warnings, what its handler
says if one is entered, and the error with which it has failed behind its echo. -/
def Reports (c : Console) (line : String) (warnings : List LogEntry) : Prop :=
  ∃ said : List LogEntry,
    (c.run line).log.entries =
      c.log.entries ++ c.echoEntry (trimLine line) :: warnings ++ said ++
        endEntries ((c.echo (trimLine line)).execute (trimLine line)).2 ∧
    (c.entered? (trimLine line) = none → said = []) ∧
    ∀ call entry, c.entered? (trimLine line) = some (call, entry) →
      (perform (entry.action call) (c.entering (trimLine line))).1.log.entries =
        (c.entering (trimLine line)).log.entries ++ said

variable {c : Console} {line : String}

/-- Every line that is not blank is reported with the warnings that come with its parameters, if
no handler takes entries away. -/
theorem reports_run (adds : c.EveryHandler Handler.Adds)
    (present : ¬ (trimLine line).isEmpty = true) :
    c.Reports line ((c.warningsOf (trimLine line)).map Warning.entry) := by
  cases found : c.entered? (trimLine line) with
  | none =>
      refine ⟨[], ?_, fun _ => rfl, ?_⟩
      · rw [run_of_not_entered present found, execute_echo_of_not_entered found, List.append_nil]
        rfl
      · intro call entry entered
        rw [found] at entered
        cases entered
  | some x =>
      obtain ⟨call, entry⟩ := x
      obtain ⟨said, kept⟩ := adds call.id entry (entered?_eq_some_iff.mp found).2
        (entry.calls + 1) ⟨call.line, call.values⟩ (c.entering (trimLine line))
      have found' : (c.echo (trimLine line)).entered? (trimLine line) = some (call, entry) := found
      refine ⟨said, ?_, ?_, ?_⟩
      · rw [run_of_not_blank present, ← entries_entering, kept, execute_of_entered found']
        rfl
      · simp [found]
      · intro call' entry' entered
        obtain ⟨rfl, rfl⟩ := Prod.mk.inj (Option.some.inj (found.symm.trans entered))
        exact kept.symm

/-- A line fails for its parameters exactly if it names a command and they cannot be read. -/
theorem execute_eq_parse_iff {e : ParseError} :
    (c.execute line).2 = .error (.parse e) ↔
      c.registry.contains (commandOf line) = true ∧ c.parametersOf line = .error e := by
  rw [execute_eq_error_iff (by simp)]
  constructor
  · rintro (_ | ⟨known, unread⟩)
    exact ⟨known, unread⟩
  · rintro ⟨known, unread⟩
    exact .unread known unread

/-- A line that names a command is not blank. -/
theorem not_isEmpty_of_contains (built : c.registry.Built)
    (known : c.registry.contains (commandOf line) = true) : ¬ line.isEmpty = true := by
  intro blank
  rw [String.isEmpty_iff] at blank
  subst blank
  cases built.isValid_of_contains known

theorem losesWarnings_iff (known : c.registry.contains (commandOf line) = true) :
    c.LosesWarnings line ↔
      (∃ e, (c.execute line).2 = .error (.parse e)) ∧ c.raisedWarningsOf line ≠ [] := by
  simp only [LosesWarnings, execute_eq_parse_iff, known, true_and]

/-- The warnings that were raised are reported exactly if the line does not lose them. -/
theorem reports_raisedWarningsOf_iff (adds : c.EveryHandler Handler.Adds)
    (present : ¬ (trimLine line).isEmpty = true) :
    c.Reports line ((c.raisedWarningsOf (trimLine line)).map Warning.entry) ↔
      ¬ c.LosesWarnings (trimLine line) := by
  constructor
  · rintro ⟨said, logged, nothing, -⟩ loses
    rw [nothing loses.not_entered, run_of_not_entered present loses.not_entered,
      execute_echo_of_not_entered loses.not_entered, loses.warningsOf] at logged
    -- Behind the echo there is the error alone, so there is no place for a warning.
    have lengths := congrArg List.length logged
    apply loses.2
    simpa [withTrace] using lengths
  · intro kept
    rw [← warningsOf_eq_raisedWarningsOf kept]
    exact reports_run adds present

end Console

/-- If no handler takes entries out of the log, there is a warning in the log for every reference
of a line that finds nothing, one for each in their order and directly behind the echo of the
line, whether no overload can be picked, a variable is not set, or the handler fails, crashes or
succeeds. Only if the line fails because its parameters cannot be read, these warnings are
missing. -/
theorem missed_references_reported_iff {c : Console} (built : c.registry.Built)
    (keeps : c.EveryHandler (Handler.Never Action.EmptiesLog)) {line : String}
    (known : c.registry.contains (commandOf (Console.trimLine line)) = true) :
    (∃ ps, ReadAs c.objects.find? c.literals (splitLine (Console.trimLine line).toList).2 ps) ∧
    ∀ ps, ReadAs c.objects.find? c.literals (splitLine (Console.trimLine line).toList).2 ps →
      (c.Reports line ((missedNames c.objects.find? ps).map fun name =>
          ⟨.warning, "No object named '" ++ name ++ "' could be found"⟩) ↔
        (∀ e, (c.execute (Console.trimLine line)).2 ≠ .error (.parse e)) ∨
          missedNames c.objects.find? ps = []) := by
  refine ⟨exists_readAs _ _ _, fun ps read => ?_⟩
  have raised : c.raisedWarningsOf (Console.trimLine line) =
      (missedNames c.objects.find? ps).map .unknownObject := by
    rw [Console.raisedWarningsOf, if_pos known, read.raisedWarnings_eq]
  have reported := Console.reports_raisedWarningsOf_iff (c := c)
    (keeps.imp fun _ => Handler.Never.adds) (Console.not_isEmpty_of_contains built known)
  rw [Console.losesWarnings_iff known, raised, List.map_map, not_and_or, not_exists, not_not,
    List.map_eq_nil_iff] at reported
  exact reported

/-- A missed reference in front of a number for which there is no overload. -/
theorem missed_references_reported_iff_no_overload :
    let c := (({} : Console).declare ⟨"look", none, "", [⟨"target", .object⟩]⟩
      Script.count.handler).1
    let line := " look {Ghost} 5"
    c.registry.Built ∧
      c.EveryHandler (Handler.Never Action.EmptiesLog) ∧
      c.registry.contains (commandOf (Console.trimLine line)) = true ∧
      ReadAs c.objects.find? c.literals (splitLine (Console.trimLine line).toList).2
        [⟨[' '], ['{', 'G', 'h', 'o', 's', 't', '}'], .object, ⟨.null, [.unknownObject "Ghost"]⟩⟩,
          ⟨[' '], ['5'], .int, ⟨.int 5, []⟩⟩] ∧
      c.Reports line [⟨.warning, "No object named 'Ghost' could be found"⟩] := by
  intro c line
  have built : c.registry.Built := Console.built_declare .empty _ _
  have keeps : c.EveryHandler (Handler.Never Action.EmptiesLog) :=
    (Console.everyHandler_of_handlers_eq_empty rfl).declare _
      ((Script.never_usesLog .count).mono fun _ => .inr)
  have known : c.registry.contains (commandOf (Console.trimLine line)) = true := by decide
  have text : (splitLine (Console.trimLine line).toList).2 =
      [' ', '{', 'G', 'h', 'o', 's', 't', '}', ' ', '5'] := by decide
  have number : Piece.Accepted c.objects.find? c.literals ⟨[' '], ['5'], .int, ⟨.int 5, []⟩⟩ [] :=
    ⟨by simp [isBlank], acceptedFirst_iff.mpr (by decide), rfl⟩
  have reference : Piece.Accepted c.objects.find? c.literals
      ⟨[' '], ['{', 'G', 'h', 'o', 's', 't', '}'], .object, ⟨.null, [.unknownObject "Ghost"]⟩⟩
      [' ', '5'] :=
    ⟨by simp [isBlank], acceptedFirst_iff.mpr (by decide), rfl⟩
  have sequence : Sequence c.objects.find? c.literals [] [_, _] :=
    .cons reference (by simp) (.cons number (by simp) .nil)
  have stop : Stop c.objects.find? c.literals [] (.ok []) := .blank (by simp)
  have read : ReadAs c.objects.find? c.literals (splitLine (Console.trimLine line).toList).2 _ :=
    ⟨[], _, by rw [text]; rfl, sequence, stop⟩
  have readable : ∀ e, (c.execute (Console.trimLine line)).2 ≠ .error (.parse e) := by
    intro e failed
    have unread := (Console.execute_eq_parse_iff.mp failed).2
    rw [Console.parametersOf, text] at unread
    cases unread.symm.trans (sequence.parseParameters_text stop)
  exact ⟨built, keeps, known, read,
    ((missed_references_reported_iff built keeps known).2 _ read).mpr (.inl readable)⟩

/-- In front of a number that is out of range a missed reference is not told of at all. -/
theorem not_reported_out_of_range :
    let c := (({} : Console).declare ⟨"look", none, "", [⟨"target", .object⟩]⟩
      Script.count.handler).1
    let line := "look {Ghost} 3000000000"
    c.registry.contains (commandOf (Console.trimLine line)) = true ∧
      (∃ ps, ReadAs c.objects.find? c.literals (splitLine (Console.trimLine line).toList).2 ps ∧
        missedNames c.objects.find? ps = ["Ghost"]) ∧
      (c.run line).log.entries =
        [⟨.command, "> look {Ghost} 3000000000"⟩,
          ⟨.error, "'3000000000' is out of range for int"⟩] ∧
      ⟨.warning, "No object named 'Ghost' could be found"⟩ ∉ (c.run line).log.entries := by
  intro c line
  have trimmed : Console.trimLine line = line := by decide
  have known : c.registry.contains (commandOf line) = true := by decide
  have text : (splitLine line.toList).2 = [' ', '{', 'G', 'h', 'o', 's', 't', '}', ' ',
      '3', '0', '0', '0', '0', '0', '0', '0', '0', '0'] := by decide
  have reference : Piece.Accepted c.objects.find? c.literals
      ⟨[' '], ['{', 'G', 'h', 'o', 's', 't', '}'], .object, ⟨.null, [.unknownObject "Ghost"]⟩⟩
      [' ', '3', '0', '0', '0', '0', '0', '0', '0', '0', '0'] :=
    ⟨by simp [isBlank], acceptedFirst_iff.mpr (by decide), rfl⟩
  have sequence : Sequence c.objects.find? c.literals _ [_] := .cons reference (by simp) .nil
  have gap : ∀ c ∈ [' '], isBlank c = true := by simp [isBlank]
  have number : AcceptedFirst c.literals .int
      ['3', '0', '0', '0', '0', '0', '0', '0', '0', '0'] [] := acceptedFirst_iff.mpr (by decide)
  have stop : Stop c.objects.find? c.literals
      [' ', '3', '0', '0', '0', '0', '0', '0', '0', '0', '0']
      (.error (.conversion (.outOfRange "3000000000" .int))) :=
    Stop.conversion gap number (by decide)
  have unread : c.parametersOf line = .error (.conversion (.outOfRange "3000000000" .int)) := by
    rw [Console.parametersOf, text]
    exact sequence.parseParameters_text stop
  have out : c.entered? line = none := by
    rw [Console.entered?, Console.callOf, if_pos known, unread]
  have failed : (c.execute line).2 =
      .error (.parse (.conversion (.outOfRange "3000000000" .int))) :=
    Console.execute_eq_parse_iff.mpr ⟨known, unread⟩
  have logged : (c.run line).log.entries =
      [⟨.command, "> look {Ghost} 3000000000"⟩,
        ⟨.error, "'3000000000' is out of range for int"⟩] := by
    rw [Console.run_of_not_entered (by decide) (trimmed.symm ▸ out), trimmed, failed,
      Console.warningsOf, if_pos known, unread]
    rfl
  rw [trimmed]
  refine ⟨known, ⟨_, ⟨_, _, by rw [text]; rfl, sequence, stop⟩, by decide⟩, logged, ?_⟩
  rw [logged]
  decide

end CommandConsole
