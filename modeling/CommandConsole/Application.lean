import CommandConsole.Console.Run

/-!
# The frames of an application

An application updates its console once per frame. Submitted lines wait in the
inbox; an update moves them behind the lines that are already pending, runs all
of these in order, and publishes what the log then holds. How lines are spread
over frames therefore makes no difference to what they do, as long as handlers
leave the log alone.
-/

namespace CommandConsole

structure Application where
  console : Console := {}
  /-- Submitted lines that no update has seen. -/
  inbox : List String := []
  /-- Lines that the next update runs. -/
  pending : List String := []

namespace Application

/-- Start an application: the built-in commands are declared, and settings on
file replace the given ones if they can be loaded. -/
def start (settings : Settings) (settingsPath : String) (files : Files) : Application where
  console :=
    ({ settings := some settings, settingsPath, files,
       history := .empty settings.maxHistory.toNat } : Console).declareBuiltins.loadSettings

/-- Submit a line. -/
def submit (a : Application) (line : String) : Application := { a with inbox := a.inbox ++ [line] }

/-- Put a line directly behind the pending ones, before all that is submitted. -/
def enqueue (a : Application) (line : String) : Application :=
  { a with pending := a.pending ++ [line] }

/-- Move the submitted lines behind the pending ones. -/
def collect (a : Application) : Application :=
  { a with inbox := [], pending := a.pending ++ a.inbox }

/-- Run the pending lines in order. -/
def runPending (a : Application) : Application :=
  { a with console := a.console.runAll a.pending, pending := [] }

/-- Take the entries out of the log. -/
def publish (a : Application) : List LogEntry × Application :=
  let (entries, log) := a.console.log.drain
  (entries, { a with console := { a.console with log } })

/-- One frame: what is published, and the application after it. -/
def update (a : Application) : List LogEntry × Application := a.collect.runPending.publish

/-- Submit the lines of each frame and update, frame by frame. -/
def runFrames (a : Application) : List (List String) → List LogEntry × Application
  | [] => ([], a)
  | lines :: frames =>
    let (entries, a) := (lines.foldl submit a).update
    let (later, a) := a.runFrames frames
    (entries ++ later, a)

end Application

end CommandConsole
