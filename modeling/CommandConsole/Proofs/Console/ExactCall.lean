import CommandConsole.Handler.Scripted
import CommandConsole.Proofs.Command.Acceptance
import CommandConsole.Proofs.Console.Steps
import CommandConsole.Proofs.Line.Edges
import CommandConsole.Proofs.Resolution.Exact

/-!
# Every overload can be called

Whatever else is declared, an overload is entered by a line that names its
command and gives each parameter a value of the declared kind: a valid name is
split off the line as it was declared, every token is read by itself, and no
other overload can score as much. The call enters one handler, once.

An overload that shares its kinds with another one of its name is left out,
because such calls are ambiguous.
-/

namespace CommandConsole

open Text

/-- A parameter as it is written, and the value that is meant. -/
structure WrittenValue where
  gap : List Char
  token : List Char
  value : Value

namespace WrittenValue

def text (a : WrittenValue) : List Char := a.gap ++ a.token

/-- Behind blanks stands a text that is read as the value and as nothing else. -/
structure ReadBy (find : ObjectLookup) (literals : List Literal) (a : WrittenValue) : Prop where
  separated : a.gap ≠ []
  blank : ∀ c ∈ a.gap, isBlank c = true
  read : parseParameters find literals a.token = .ok ⟨[a.value], []⟩
  plain : ∀ name, a.value ≠ .varName name

end WrittenValue

section Reading

variable {find : ObjectLookup} {literals : List Literal} {args : List WrittenValue}
variable {back : List Char}

theorem atBoundary_written (written : ∀ a ∈ args, a.ReadBy find literals)
    (blank : ∀ c ∈ back, isBlank c = true) :
    atBoundary (args.flatMap WrittenValue.text ++ back) = true :=
  atBoundary_flatMap (fun a given => (written a given).blank)
    (fun a given => (written a given).separated) blank

/-- Written values are read as they are meant, one by one. -/
theorem parseParameters_written (written : ∀ a ∈ args, a.ReadBy find literals)
    (blank : ∀ c ∈ back, isBlank c = true) :
    parseParameters find literals (args.flatMap WrittenValue.text ++ back) =
      .ok ⟨args.map (·.value), []⟩ := by
  induction args with
  | nil => exact parseParameters_of_blank blank
  | cons a args ih =>
      obtain ⟨first, others⟩ := List.forall_mem_cons.mp written
      have alone : parseParameters find literals a.text = .ok ⟨[a.value], []⟩ := by
        rw [WrittenValue.text, parseParameters_append_of_blank first.blank, first.read]
      rw [List.flatMap_cons, List.append_assoc,
        parseParameters_append (atBoundary_written others blank) (by simp [alone]), alone,
        ih others]
      rfl

end Reading

namespace Console

section

variable {c : Console} {n : String} {d : Overload} {entry : HandlerEntry}
variable {args : List WrittenValue} {front back : List Char}

/-- A line that calls a command with written values. -/
def writtenLine (front : List Char) (n : String) (args : List WrittenValue) (back : List Char) :
    String :=
  String.ofList (front ++ n.toList ++ (args.flatMap WrittenValue.text ++ back))

theorem splitLine_writtenLine (valid : CommandName.isValid n.toList = true)
    (front_blank : ∀ c ∈ front, isBlank c = true)
    (written : ∀ a ∈ args, a.ReadBy c.objects.find? c.literals)
    (back_blank : ∀ c ∈ back, isBlank c = true) :
    splitLine (writtenLine front n args back).toList =
      (n.toList, args.flatMap WrittenValue.text ++ back) := by
  rw [writtenLine, String.toList_ofList]
  exact splitLine_append front_blank (CommandName.isBlank_eq_false_of_isValid valid)
    (CommandName.ne_nil_of_isValid valid) (atBoundary_written written back_blank)

/-- The call that comes out of an exact line, and no warning. -/
theorem callOf_writtenLine (built : c.registry.Built) (listed : d ∈ c.registry.overloads n)
    (only : ∀ o ∈ c.registry.overloads n, o.kinds = d.kinds → o = d)
    (written : ∀ a ∈ args, a.ReadBy c.objects.find? c.literals)
    (exact : args.map (·.value.kind?) = d.kinds.map some)
    (front_blank : ∀ c ∈ front, isBlank c = true) (back_blank : ∀ c ∈ back, isBlank c = true) :
    c.callOf (writtenLine front n args back) =
        .ok ⟨n, writtenLine front n args back, d.id, args.map (·.value)⟩ ∧
      c.warningsOf (writtenLine front n args back) = [] := by
  have known := Registry.contains_of_mem_overloads listed
  have split := splitLine_writtenLine (built.isValid_of_contains known) front_blank written
    back_blank
  have named : commandOf (writtenLine front n args back) = n := by
    rw [commandOf, split, String.ofList_toList]
  have read : c.parametersOf (writtenLine front n args back) = .ok ⟨args.map (·.value), []⟩ := by
    rw [parametersOf, split]
    exact parseParameters_written written back_blank
  have plain : ∀ v ∈ args.map (·.value), ∀ name, v ≠ .varName name := by
    intro v member
    obtain ⟨a, given, rfl⟩ := List.mem_map.mp member
    exact (written a given).plain
  have kinds : (args.map (·.value)).map Value.kind? = d.kinds.map some := by
    rw [List.map_map]
    exact exact
  have arity : d.kinds.length = (args.map (·.value)).length := by
    simpa using (congrArg List.length kinds).symm
  have picked : c.registry.resolve n c.vars (args.map (·.value)) = .ok d :=
    resolve_of_exact n listed (built.nodup_overloads n) only plain kinds
  constructor
  · simp only [callOf, named, known, ↓reduceIte, read, picked, bindValues_of_plain arity plain]
  · simp only [warningsOf, named, known, ↓reduceIte, read]

/-- A line without warnings does nothing before its handler is entered but
freeze the registry. -/
theorem prepared_of_no_warnings {line : String} (quiet : c.warningsOf line = []) :
    c.prepared line = c.freeze := by
  rw [prepared, quiet, List.map_nil, List.append_nil]
  rfl

/-- The line that names the command of an overload and writes values of exactly
its kinds enters its handler, with these values. The handler is called once, and
no other handler of the table is called. -/
theorem execute_writtenLine (built : c.registry.Built) (listed : d ∈ c.registry.overloads n)
    (only : ∀ o ∈ c.registry.overloads n, o.kinds = d.kinds → o = d)
    (present : c.handlers[d.id]? = some entry)
    (written : ∀ a ∈ args, a.ReadBy c.objects.find? c.literals)
    (exact : args.map (·.value.kind?) = d.kinds.map some)
    (front_blank : ∀ c ∈ front, isBlank c = true) (back_blank : ∀ c ∈ back, isBlank c = true) :
    let line := writtenLine front n args back
    let values := args.map (·.value)
    let done := perform (entry.handler (entry.calls + 1) ⟨line, values⟩) c.freeze
    c.entered? line = some (⟨n, line, d.id, values⟩, entry) ∧
    c.execute line =
      (done.1.withHandler d.id entry.called,
        (done.2.result n).mapError LineError.invocation) ∧
    (∀ id, (c.execute line).1.handlers[id]? =
      if d.id = id then some entry.called else c.handlers[id]?) ∧
    ∀ other, ∀ o ∈ c.registry.overloads other, o ≠ d →
      (c.execute line).1.handlers[o.id]? = c.handlers[o.id]? := by
  intro line values done
  obtain ⟨computed, quiet⟩ :=
    callOf_writtenLine built listed only written exact front_blank back_blank
  have entered : c.entered? line = some (⟨n, line, d.id, values⟩, entry) :=
    entered?_eq_some_iff.mpr ⟨computed, present⟩
  have executed : c.execute line = (done.1.withHandler d.id entry.called,
      (done.2.result n).mapError LineError.invocation) := by
    rw [execute_of_entered entered, prepared_of_no_warnings quiet]
    rfl
  have table : ∀ id, (c.execute line).1.handlers[id]? =
      if d.id = id then some entry.called else c.handlers[id]? := by
    intro id
    have kept : done.1.handlers = c.handlers := handlers_perform _ c.freeze
    rw [executed]
    simp only [withHandler, kept, Std.TreeMap.getElem?_insert, Std.LawfulEqCmp.compare_eq_iff_eq]
  refine ⟨entered, executed, table, ?_⟩
  intro other o member different
  have apart : o.id ≠ d.id := mt (built.eq_of_id_eq member listed) different
  rw [table, if_neg (Ne.symm apart)]

/-- The exact overload is entered although two others take the same values, and
whatever blanks are written. -/
theorem execute_writtenLine_competitors :
    let declare (kinds : List Kind) (c : Console) : Console :=
      (c.declare ⟨"f", some "g", "", kinds.map (⟨"x", ·⟩)⟩ Script.describe.handler).1
    let c : Console := declare [.float, .any] <| declare [.int, .string] <| declare [.any, .any] {}
    let d : Overload := ⟨1, "g.f", "", [⟨"x", .int⟩, ⟨"x", .string⟩]⟩
    let seven : WrittenValue := ⟨[' ', '\u00a0'], ['7'], .int 7⟩
    let blank : WrittenValue := ⟨[' '], ['"', ' ', '"'], .string " "⟩
    let line := writtenLine ['\t'] "g.f" [seven, blank] ['\n']
    c.entered? line =
        some (⟨"g.f", line, d.id, [.int 7, .string " "]⟩, ⟨Script.describe.handler, 0⟩) ∧
      (c.execute line).1.handlers[d.id]? = some ⟨Script.describe.handler, 1⟩ ∧
      (c.execute line).1.handlers[2]? = some ⟨Script.describe.handler, 0⟩ := by
  intro declare c d seven blank line
  have built : c.registry.Built :=
    built_declare (built_declare (built_declare .empty _ _) _ _) _ _
  have seven_read : seven.ReadBy c.objects.find? c.literals := by
    refine ⟨by simp, List.all_eq_true.mp (by decide), ?_, by simp⟩
    rw [parseParameters_eq, readAll_of_token (l := .int) (t := ['7']) (r := []) rfl (by decide),
      readAll_of_blank rfl]
    rfl
  have blank_read : blank.ReadBy c.objects.find? c.literals := by
    refine ⟨by simp, List.all_eq_true.mp (by decide), ?_, by simp⟩
    rw [parseParameters_eq,
      readAll_of_token (l := .string) (t := ['"', ' ', '"']) (r := []) rfl (by decide),
      readAll_of_blank rfl]
    rfl
  have listed : d ∈ c.registry.overloads "g.f" := by decide
  have only : ∀ o ∈ c.registry.overloads "g.f", o.kinds = d.kinds → o = d := by decide
  have written : ∀ a ∈ [seven, blank], a.ReadBy c.objects.find? c.literals :=
    List.forall_mem_cons.mpr ⟨seven_read, List.forall_mem_singleton.mpr blank_read⟩
  have other : c.handlers[2]? = some ⟨Script.describe.handler, 0⟩ := rfl
  obtain ⟨entered, -, table, -⟩ := @execute_writtenLine c "g.f" d ⟨Script.describe.handler, 0⟩ _
    ['\t'] ['\n'] built listed only rfl written rfl (List.all_eq_true.mp rfl)
    (List.all_eq_true.mp rfl)
  refine ⟨entered, ?_, ?_⟩
  · rw [table, if_pos rfl]
    rfl
  · rw [table, if_neg (by decide), other]

end

end Console

end CommandConsole
