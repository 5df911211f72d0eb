import CommandConsole.Application
import CommandConsole.Proofs.Application.Frames
import CommandConsole.Proofs.Console.Activity
import CommandConsole.Proofs.History.Operation

/-!
# The history has the capacity that the settings ask for

How many lines are kept is said in the settings, and the history keeps a copy
of it. An application sets both when it is built; loading and replacing settings
sets both again, or neither. A line, and whatever its handler asks for, can only
record further lines, which are dropped again where there are too many. So the
two never differ, at any step of any line.
-/

namespace CommandConsole

open Relation Activity

namespace Console

/-- The history has the capacity that the settings ask for, and keeps to it. -/
structure FollowsSettings (c : Console) : Prop where
  capacity : ∃ s, c.settings = some s ∧ c.history.capacity = s.maxHistory.toNat
  short : c.history.lines.length ≤ c.history.capacity

namespace FollowsSettings

variable {c d : Console}

theorem of_eq (follows : c.FollowsSettings) (settings : d.settings = c.settings)
    (history : d.history = c.history) : d.FollowsSettings := by
  refine ⟨?_, ?_⟩
  · rw [settings, history]
    exact follows.capacity
  · rw [history]
    exact follows.short

theorem record (follows : c.FollowsSettings) (line : String) :
    { c with history := c.history.record line }.FollowsSettings :=
  ⟨follows.capacity, c.history.length_lines_record line⟩

theorem previousLine (follows : c.FollowsSettings) (older : Bool) :
    (c.previousLine older).2.FollowsSettings := by
  obtain ⟨s, held, same⟩ := follows.capacity
  have capacity : (c.previousLine older).2.history.capacity = c.history.capacity :=
    History.capacity_navigate c.history older
  have lines : (c.previousLine older).2.history.lines = c.history.lines :=
    History.lines_navigate c.history older
  refine ⟨⟨s, held, capacity.trans same⟩, ?_⟩
  rw [lines, capacity]
  exact follows.short

theorem applySettings (c : Console) (s : Settings) : (c.applySettings s).FollowsSettings := by
  refine ⟨⟨s, rfl, rfl⟩, ?_⟩
  change (c.history.setCapacity s.maxHistory.toNat).lines.length ≤ s.maxHistory.toNat
  rw [History.length_lines_setCapacity]
  exact Nat.min_le_right ..

theorem loadSettings (follows : c.FollowsSettings) : c.loadSettings.FollowsSettings := by
  rw [Console.loadSettings]
  split
  next s _ => exact applySettings c s
  next => exact follows

/-- Of all changes that a line makes, only a recorded line has to do with the history, and none
has to do with the settings. -/
theorem of_change (follows : c.FollowsSettings) (change : Change c d) : d.FollowsSettings := by
  cases change with
  | record line => exact follows.record line
  | _ => exact follows.of_eq rfl rfl

theorem of_changes (follows : c.FollowsSettings) (changes : ReflTransGen Change c d) :
    d.FollowsSettings := by
  induction changes with
  | refl => exact follows
  | tail _ change ih => exact ih.of_change change

end FollowsSettings

/-- What the host does with the settings and the history between lines. -/
inductive Hosted : Console → Console → Prop where
  | load (c : Console) : Hosted c c.loadSettings
  | apply (c : Console) (s : Settings) : Hosted c (c.applySettings s)
  | walk (c : Console) (older : Bool) : Hosted c (c.previousLine older).2
  /-- Something happens that has to do with neither. -/
  | elsewhere {c d : Console} : d.settings = c.settings → d.history = c.history → Hosted c d

theorem Hosted.followsSettings {c d : Console} (hosted : Hosted c d)
    (follows : c.FollowsSettings) : d.FollowsSettings := by
  cases hosted with
  | load => exact follows.loadSettings
  | apply s => exact .applySettings c s
  | walk older => exact follows.previousLine older
  | elsewhere settings history => exact follows.of_eq settings history

end Console

open Console

/-- One step in the life of an application. Between lines the host does something or lets a line
begin, recorded and echoed or not; a line goes on by its own steps. -/
inductive Lives : Activity → Activity → Prop where
  | host {c d : Console} (result : Except LineError Unit) :
    Hosted c d → Lives (.finished (c, result)) (.finished (d, result))
  | run (c : Console) (line : String) (result : Except LineError Unit) :
    Lives (.finished (c, result)) (.start (c.echo line) line)
  | execute (c : Console) (line : String) (result : Except LineError Unit) :
    Lives (.finished (c, result)) (.start c line)
  | step {m n : Activity} : m.Next n → Lives m n

theorem Lives.followsSettings {m n : Activity} (lives : Lives m n)
    (follows : m.console.FollowsSettings) : n.console.FollowsSettings := by
  cases lives with
  | @host c d result hosted =>
      have before : c.FollowsSettings := follows.of_eq rfl rfl
      exact (hosted.followsSettings before).of_eq rfl rfl
  | run c line =>
      have before : c.FollowsSettings := follows.of_eq rfl rfl
      exact (before.of_changes (changes_echo c line)).of_eq rfl rfl
  | execute c line => exact follows.of_eq rfl rfl
  | step next => exact follows.of_changes next.changes

namespace Console

variable {c d : Console}

/-- From one moment between lines an application comes to another one. -/
def LivesTo (c d : Console) : Prop :=
  ∀ result, ∃ result', ReflTransGen Lives (.finished (c, result)) (.finished (d, result'))

theorem LivesTo.refl (c : Console) : c.LivesTo c := fun result => ⟨result, .refl⟩

theorem LivesTo.trans {e : Console} (first : c.LivesTo d) (second : d.LivesTo e) :
    c.LivesTo e := by
  intro result
  obtain ⟨result, first⟩ := first result
  obtain ⟨result, second⟩ := second result
  exact ⟨result, first.trans second⟩

theorem Hosted.livesTo (hosted : Hosted c d) : c.LivesTo d :=
  fun result => ⟨result, .single (.host result hosted)⟩

theorem hosted_declare (c : Console) (d : Declaration) (h : Handler) :
    Hosted c (c.declare d h).1 := by
  rw [declare]
  split <;> exact .elsewhere rfl rfl

theorem livesTo_declareAll (c : Console) (commands : List (Declaration × Handler)) :
    c.LivesTo (c.declareAll commands) := by
  induction commands generalizing c with
  | nil => exact .refl c
  | cons x commands ih => exact (hosted_declare c x.1 x.2).livesTo.trans (ih _)

/-- A line is echoed, goes through all its steps, and its error is told to the log. -/
theorem livesTo_run (c : Console) (line : String) : c.LivesTo (c.run line) := by
  intro result
  by_cases blank : (trimLine line).isEmpty = true
  · rw [run_of_blank blank]
    exact ⟨result, .refl⟩
  · have steps := ReflTransGen.mono (fun _ _ => Lives.step) _ _
      (reaches_finished (c.echo (trimLine line)) (trimLine line))
    have told : Hosted ((c.echo (trimLine line)).execute (trimLine line)).1 (c.run line) := by
      rw [run_of_not_blank blank]
      exact .elsewhere rfl rfl
    exact ⟨_, .head (.run c (trimLine line) result) (steps.tail (.host _ told))⟩

theorem livesTo_runAll (c : Console) (lines : List String) : c.LivesTo (c.runAll lines) := by
  induction lines generalizing c with
  | nil => exact .refl c
  | cons line lines ih =>
      rw [runAll_cons]
      exact (livesTo_run c line).trans (ih _)

end Console

namespace Application

/-- The console of an application that has been built with some settings, before anything is
declared and loaded. -/
def built (settings : Settings) (settingsPath : String) (files : Files) : Console :=
  { settings := some settings, settingsPath, files, history := .empty settings.maxHistory.toNat }

theorem followsSettings_built (settings : Settings) (settingsPath : String) (files : Files) :
    (built settings settingsPath files).FollowsSettings :=
  ⟨⟨settings, rfl, rfl⟩, Nat.zero_le _⟩

theorem livesTo_start (settings : Settings) (settingsPath : String) (files : Files) :
    (built settings settingsPath files).LivesTo (start settings settingsPath files).console :=
  (livesTo_declareAll _ Builtin.all).trans (Hosted.load _).livesTo

theorem livesTo_update (a : Application) : a.console.LivesTo a.update.2.console := by
  have published : Hosted (a.console.runAll a.collect.pending) a.update.2.console :=
    .elsewhere rfl rfl
  exact (livesTo_runAll a.console a.collect.pending).trans published.livesTo

theorem livesTo_runFrames (a : Application) (frames : List (List String)) :
    a.console.LivesTo (a.runFrames frames).2.console := by
  induction frames generalizing a with
  | nil => exact .refl _
  | cons lines frames ih =>
      have submitted : (lines.foldl submit a).console = a.console := by rw [foldl_submit]
      have first := (lines.foldl submit a).livesTo_update
      rw [submitted] at first
      exact first.trans (ih _)

/-- At every step in the life of an application, also while a line is executed, the capacity of
the history is the one that the settings ask for, and there are no more lines than that. This goes
for any settings to begin with and any files, for any lines over any number of frames, and for
any commands beside the built-in ones. Settings that cannot be loaded leave everything as it is.
Settings that are applied keep the most recent lines of any history, as many as they allow, in
their order, and a walk goes on only if it is at a line that is kept. -/
theorem history_follows_settings (settings : Settings) (settingsPath : String) (files : Files) :
    (∀ m, ReflTransGen Lives (.finished (built settings settingsPath files, .ok ())) m →
      m.console.FollowsSettings) ∧
    (∀ commands frames, (({ console :=
        (start settings settingsPath files).console.declareAll commands } :
        Application).runFrames frames).2.console.FollowsSettings) ∧
    (∀ (c : Console) (e : StorageError), Settings.load c.files c.settingsPath = .error e →
      c.loadSettings = c) ∧
    ∀ (c : Console) (s : Settings),
      let kept := min c.history.lines.length s.maxHistory.toNat
      (c.applySettings s).settings = some s ∧
        (c.applySettings s).history.capacity = s.maxHistory.toNat ∧
        (c.applySettings s).history.lines = c.history.lines.take kept ∧
        (c.applySettings s).history.lines.length = kept ∧
        ∀ place, (c.applySettings s).history.cursor = some place ↔
          c.history.cursor = some place ∧ place < kept := by
  have always (m : Activity)
      (life : ReflTransGen Lives (.finished (built settings settingsPath files, .ok ())) m) :
      m.console.FollowsSettings := by
    induction life with
    | refl => exact (followsSettings_built settings settingsPath files).of_eq rfl rfl
    | tail _ lives follows => exact lives.followsSettings follows
  refine ⟨always, ?_, ?_, ?_⟩
  · intro commands frames
    have declared := (livesTo_start settings settingsPath files).trans
      (livesTo_declareAll _ commands)
    have ran := livesTo_runFrames
      { console := (start settings settingsPath files).console.declareAll commands } frames
    obtain ⟨result, life⟩ := declared.trans ran (.ok ())
    exact (always _ life).of_eq rfl rfl
  · intro c e failed
    rw [loadSettings, failed]
  · intro c s kept
    exact ⟨rfl, rfl, History.lines_setCapacity .., History.length_lines_setCapacity ..,
      fun _ => History.cursor_setCapacity_eq_some_iff⟩

/-- Settings on file allow a single line, which is the last of two. Settings that allow none are
applied while a walk is at it. A text that is not that of settings changes nothing. -/
theorem history_follows_settings_single_line :
    let files : Files := ⟨[(["work"], .directory),
      (["work", "console.ron"], .file "(\n    max_history: 1,\n)"),
      (["work", "bad.ron"], .file "(max_history: \"lots\")")]⟩
    let first := (built { maxHistory := 3 } "console.ron" files).loadSettings
    let c := ((start { maxHistory := 3 } "console.ron" files).runFrames [["x", "y"]]).2.console
    let walked := (c.previousLine true).2
    (Activity.start (first.echo "x") "x").console.FollowsSettings ∧
      c.settings = some { maxHistory := 1 } ∧ c.history = ⟨["y"], 1, none⟩ ∧ c.FollowsSettings ∧
      walked.history.cursor = some 0 ∧
      (walked.applySettings { maxHistory := 0 }).history.lines = [] ∧
      (walked.applySettings { maxHistory := 0 }).history.cursor = none ∧
      (built {} "bad.ron" files).loadSettings = built {} "bad.ron" files := by
  intro files first c walked
  have lines : c.history = ⟨["y"], 1, none⟩ := by decide +kernel
  have place : walked.history.cursor = some 0 := by decide +kernel
  obtain ⟨life, frames, unloaded, applied⟩ :=
    history_follows_settings { maxHistory := 3 } "console.ron" files
  have begun := life _ (.tail (.single (.host (.ok ()) (.load _))) (.run first "x" (.ok ())))
  have loaded : c.settings = some { maxHistory := 1 } := by decide +kernel
  have malformed : Settings.load files "bad.ron" = .error (.unreadable "bad.ron") := by
    decide +kernel
  obtain ⟨-, -, -, length, cursor⟩ := applied walked { maxHistory := 0 }
  have nothing : min walked.history.lines.length 0 = 0 := Nat.min_zero _
  refine ⟨begun, loaded, lines, frames [] [["x", "y"]], place, ?_, ?_, unloaded _ _ malformed⟩
  · exact List.eq_nil_of_length_eq_zero (length.trans nothing)
  · rw [Option.eq_none_iff_forall_ne_some]
    intro place there
    have kept : place < min walked.history.lines.length 0 := ((cursor place).mp there).2
    exact Nat.not_lt_zero place (nothing ▸ kept)

end Application

end CommandConsole
