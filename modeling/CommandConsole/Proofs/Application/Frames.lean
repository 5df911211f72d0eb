import CommandConsole.Application
import CommandConsole.Proofs.Console.Frame
import CommandConsole.Proofs.Handler.LogUse

/-!
# Frames run the lines one after the other

However lines are spread over frames, each of them is run once, in order, and a
frame leaves nothing behind that waits. A frame takes the log away, which only a
handler can tell that reads the log. Without such a handler the lines do what
they do when they are run in order, and if besides no handler takes entries away
itself, what is published over the frames is the log of that run.
-/

namespace CommandConsole

namespace Console

/-- A console whose log has been taken away. -/
def mute (c : Console) : Console := { c with log := {} }

variable {c : Console}

theorem mute_of_silent (silent : c.log.entries = []) : c.mute = c := by
  rw [mute, ← silent]

theorem runAll_append (c : Console) (lines later : List String) :
    c.runAll (lines ++ later) = (c.runAll lines).runAll later :=
  List.foldl_append

theorem log_declare (c : Console) (d : Declaration) (h : Handler) :
    (c.declare d h).1.log = c.log := by
  rw [declare]
  split <;> rfl

theorem log_declareAll (c : Console) (commands : List (Declaration × Handler)) :
    (c.declareAll commands).log = c.log := by
  induction commands generalizing c with
  | nil => rfl
  | cons x commands ih => exact (ih (c.declare x.1 x.2).1).trans (log_declare c x.1 x.2)

theorem log_loadSettings (c : Console) : c.loadSettings.log = c.log := by
  rw [loadSettings]
  split <;> rfl

/-- Where no handler reads the log, taking it away makes no difference to what later lines do. -/
theorem mute_runAll_mute (blind : c.EveryHandler Handler.Blind) (lines : List String) :
    (c.mute.runAll lines).mute = (c.runAll lines).mute := by
  obtain ⟨t, goes⟩ := runAll_traced blind lines
  have muted : c.mute.runAll lines = t.on c.history [] (c.runAll lines) :=
    (Prod.mk.inj (goes c.history [])).1
  have full : c.runAll lines = t.on c.history c.log.entries (c.runAll lines) :=
    (Prod.mk.inj (goes c.history c.log.entries)).1
  rw [muted, full]
  rfl

/-- Where besides no handler takes entries away, what the log holds before some lines only comes
before what they add to it. -/
theorem entries_runAll_mute (blind : c.EveryHandler Handler.Blind)
    (adds : c.EveryHandler Handler.Adds) (lines : List String) :
    (c.runAll lines).log.entries = c.log.entries ++ (c.mute.runAll lines).log.entries := by
  obtain ⟨t, keeps, goes⟩ := exists_keeping_trace blind adds lines
  have muted : c.mute.runAll lines = t.on c.history [] (c.runAll lines) := goes c.history []
  have full : c.runAll lines = t.on c.history c.log.entries (c.runAll lines) :=
    goes c.history c.log.entries
  rw [muted, full]
  simp [keeps]

end Console

namespace Application

/-- Nothing waits to be run or to be published. -/
structure Quiet (a : Application) : Prop where
  inbox : a.inbox = []
  pending : a.pending = []
  silent : a.console.log.entries = []

/-- The lines that each of some frames runs. -/
def ranLines (a : Application) : List (List String) → List (List String)
  | [] => []
  | lines :: frames =>
    let submitted := lines.foldl submit a
    submitted.collect.pending :: submitted.update.2.ranLines frames

variable {a : Application}

/-- Whatever waits, nothing does behind a frame. -/
theorem quiet_update (a : Application) : a.update.2.Quiet := ⟨rfl, rfl, rfl⟩

/-- Starting logs nothing. -/
theorem quiet_start (settings : Settings) (settingsPath : String) (files : Files) :
    (start settings settingsPath files).Quiet := by
  refine ⟨rfl, rfl, ?_⟩
  rw [start, Console.log_loadSettings, Console.declareBuiltins, Console.log_declareAll]

/-- An application is started with the built-in commands. -/
theorem everyHandler_start {P : Handler → Prop} (builtin : ∀ x ∈ Builtin.all, P x.2)
    (settings : Settings) (settingsPath : String) (files : Files) :
    (start settings settingsPath files).console.EveryHandler P := by
  let bare : Console :=
    { settings := some settings, settingsPath, files, history := .empty settings.maxHistory.toNat }
  have empty : bare.EveryHandler P := Console.everyHandler_of_handlers_eq_empty rfl
  rw [start, Console.loadSettings]
  split <;> exact empty.declareAll builtin

theorem foldl_submit (a : Application) (lines : List String) :
    lines.foldl submit a = { a with inbox := a.inbox ++ lines } := by
  induction lines generalizing a with
  | nil => simp
  | cons line lines ih => simp [ih, submit]

/-- A frame runs what was submitted in it, publishes the log and takes it away. -/
theorem update_of_quiet (quiet : a.Quiet) (lines : List String) :
    (lines.foldl submit a).collect.pending = lines ∧
      (lines.foldl submit a).update = ((a.console.runAll lines).log.entries,
        { a with console := (a.console.runAll lines).mute }) := by
  obtain ⟨inbox, pending, -⟩ := quiet
  have collected : (lines.foldl submit a).collect = { a with pending := lines } := by
    rw [foldl_submit, collect, inbox, pending]
    simp
  refine ⟨by rw [collected], ?_⟩
  rw [update, collected, runPending, publish, pending]
  rfl

/-- The application behind some frames. -/
theorem runFrames_snd_of_quiet (quiet : a.Quiet) (blind : a.console.EveryHandler Handler.Blind)
    (frames : List (List String)) :
    (a.runFrames frames).2 = { a with console := (a.console.runAll frames.flatten).mute } := by
  induction frames generalizing a with
  | nil =>
      have same : a.console.mute = a.console := Console.mute_of_silent quiet.silent
      change a = { a with console := a.console.mute }
      rw [same]
  | cons lines frames ih =>
      obtain ⟨-, first⟩ := update_of_quiet quiet lines
      have next := quiet_update (lines.foldl submit a)
      have blind' := blind.of_steps (Console.steps_runAll a.console lines)
      rw [first] at next
      rw [runFrames, first, List.flatten_cons, Console.runAll_append]
      simp only [ih next blind', Console.mute_runAll_mute blind']

/-- What some frames publish. What the first one logs is published at once, and the later ones do
not miss it. -/
theorem runFrames_fst_of_quiet (quiet : a.Quiet) (blind : a.console.EveryHandler Handler.Blind)
    (adds : a.console.EveryHandler Handler.Adds) (frames : List (List String)) :
    (a.runFrames frames).1 = (a.console.runAll frames.flatten).log.entries := by
  induction frames generalizing a with
  | nil => exact quiet.silent.symm
  | cons lines frames ih =>
      obtain ⟨-, first⟩ := update_of_quiet quiet lines
      have next := quiet_update (lines.foldl submit a)
      have steps := Console.steps_runAll a.console lines
      have blind' := blind.of_steps steps
      have adds' := adds.of_steps steps
      rw [first] at next
      rw [runFrames, first, List.flatten_cons, Console.runAll_append,
        Console.entries_runAll_mute blind' adds']
      simp only [ih next blind' adds']

theorem ranLines_of_quiet (quiet : a.Quiet) (frames : List (List String)) :
    a.ranLines frames = frames := by
  induction frames generalizing a with
  | nil => rfl
  | cons lines frames ih =>
      rw [ranLines, (update_of_quiet quiet lines).1, ih (quiet_update _)]

/-- Behind any number of frames nothing waits. -/
theorem quiet_runFrames (quiet : a.Quiet) (frames : List (List String)) :
    (a.runFrames frames).2.Quiet := by
  induction frames generalizing a with
  | nil => exact quiet
  | cons lines frames ih => exact ih (quiet_update _)

/-- Frame by frame, an application runs exactly the lines that are submitted to it, in their order,
and nothing waits behind a frame. If no handler reads the log, the application ends, apart from
the log, as if all lines had been run one after the other. If besides no handler takes entries out
of the log, what the frames publish is the log of that run. So it does not matter how the lines
are spread over frames. -/
theorem frames_refine_sequential_run (quiet : a.Quiet) (frames : List (List String)) :
    a.ranLines frames = frames ∧
    (∀ n, (a.runFrames (frames.take n)).2.Quiet) ∧
    (a.console.EveryHandler (Handler.Never Action.ReadsLog) →
      (a.runFrames frames).2 =
        { a with console := { a.console.runAll frames.flatten with log := {} } } ∧
      (∀ others : List (List String), others.flatten = frames.flatten →
        (a.runFrames others).2 = (a.runFrames frames).2) ∧
      (a.console.EveryHandler (Handler.Never Action.EmptiesLog) →
        (a.runFrames frames).1 = (a.console.runAll frames.flatten).log.entries ∧
        ∀ others : List (List String), others.flatten = frames.flatten →
          a.runFrames others = a.runFrames frames)) := by
  refine ⟨ranLines_of_quiet quiet frames, fun n => quiet_runFrames quiet _, fun reads => ?_⟩
  have blind := reads.imp fun _ => Handler.Never.blind
  have ends (others : List (List String)) (same : others.flatten = frames.flatten) :
      (a.runFrames others).2 = (a.runFrames frames).2 := by
    rw [runFrames_snd_of_quiet quiet blind, runFrames_snd_of_quiet quiet blind, same]
  refine ⟨runFrames_snd_of_quiet quiet blind frames, ends, fun empties => ?_⟩
  have adds := empties.imp fun _ => Handler.Never.adds
  have published := runFrames_fst_of_quiet quiet blind adds
  refine ⟨published frames, fun others same => Prod.ext ?_ (ends others same)⟩
  rw [published, published, same]

/-- Three lines in two frames with an idle one between them, and in a single frame. -/
theorem frames_refine_sequential_run_unknown_commands :
    let a := start {} "console.ron" {}
    let frames := [["first", " second "], [], ["third"]]
    a.Quiet ∧ a.console.EveryHandler (Handler.Never Action.ReadsLog) ∧
      a.console.EveryHandler (Handler.Never Action.EmptiesLog) ∧
      (a.runFrames frames).1 =
        [⟨.command, "> first"⟩,
          ⟨.error, "Unable to run command 'first': no such command exists"⟩,
          ⟨.command, "> second"⟩,
          ⟨.error, "Unable to run command 'second': no such command exists"⟩,
          ⟨.command, "> third"⟩,
          ⟨.error, "Unable to run command 'third': no such command exists"⟩] ∧
      a.runFrames [frames.flatten] = a.runFrames frames := by
  intro a frames
  have quiet : a.Quiet := quiet_start _ _ _
  have builtin := everyHandler_start Builtin.never_usesLog {} "console.ron" {}
  have reads := builtin.imp fun _ never => never.mono fun _ => Or.inl
  have empties := builtin.imp fun _ never => never.mono fun _ => Or.inr
  obtain ⟨-, -, refines⟩ := frames_refine_sequential_run quiet frames
  obtain ⟨published, spread⟩ := (refines reads).2.2 empties
  refine ⟨quiet, reads, empties, ?_, spread _ (by simp [frames])⟩
  rw [published]
  decide +kernel

/-- A handler that empties the log takes away what has not been published, and one that reads the
log can tell what has been. Both make it matter how the lines are spread over frames. -/
theorem frames_differ_from_sequential_run :
    let clear : Handler := fun _ _ => .clearLog .succeed
    let count : Handler := fun _ _ =>
      .readLog fun entries => .setVariable "n" (.int (.ofNat entries.length)) fun _ => .succeed
    let c := ((start {} "console.ron" {}).console.declareAll
      [(⟨"clear", none, "", []⟩, clear), (⟨"count", none, "", []⟩, count)])
    let a : Application := { console := c }
    a.Quiet ∧
      (a.runFrames [["nope"], ["clear"]]).1 =
        [⟨.command, "> nope"⟩,
          ⟨.error, "Unable to run command 'nope': no such command exists"⟩] ∧
      (a.console.runAll ["nope", "clear"]).log.entries = [] ∧
      (a.runFrames [["nope"], ["count"]]).2.console.vars.get? "n" = some (.int 1) ∧
      (a.console.runAll ["nope", "count"]).vars.get? "n" = some (.int 3) := by
  intro clear count c a
  refine ⟨⟨rfl, rfl, ?_⟩, ?_, ?_, ?_, ?_⟩
  · rw [Console.log_declareAll]
    exact (quiet_start {} "console.ron" {}).silent
  · decide +kernel
  · decide +kernel
  · decide +kernel
  · decide +kernel

end Application

end CommandConsole
