import CommandConsole.Handler.Builtin
import CommandConsole.Handler.Scripted
import CommandConsole.Proofs.Console.Turn

/-!
# What ready-made handlers do with the log

The built-in commands and the scripted behaviours add to the log, but they never
ask what is in it, and they never take anything out of it.
-/

namespace CommandConsole

namespace Action

/-- The handler is told what is in the log, or takes it away. -/
def UsesLog (a : Action) : Prop := a.ReadsLog ∨ a.EmptiesLog

@[simp] theorem never_usesLog_orFail {ε α : Type} {message : ε → String} {next : α → Action}
    {r : Except ε α} :
    (orFail message next r).Never UsesLog ↔ ∀ x, r = .ok x → (next x).Never UsesLog := by
  cases r with
  | error e => simp [orFail, failWith, Never, UsesLog, ReadsLog, EmptiesLog]
  | ok x => simp [orFail]

@[simp] theorem never_usesLog_logAll {entries : List LogEntry} {a : Action} :
    (logAll entries a).Never UsesLog ↔ a.Never UsesLog := by
  induction entries with
  | nil => rfl
  | cons e entries ih =>
      rw [← ih]
      simp [logAll, Never, UsesLog, ReadsLog, EmptiesLog]

end Action

open CommandConsole.Action

theorem Builtin.never_usesLog : ∀ x ∈ Builtin.all, x.2.Never Action.UsesLog := by
  intro x member calls args
  simp only [Builtin.all, List.mem_cons, List.not_mem_nil, or_false] at member
  rcases member with rfl | rfl | rfl | rfl | rfl
  · simp [help, Never, UsesLog, ReadsLog, EmptiesLog]
  · refine never_usesLog_orFail.mpr fun name _ => never_usesLog_orFail.mpr fun value _ => ?_
    simp [Never, UsesLog, ReadsLog, EmptiesLog]
  · refine never_usesLog_orFail.mpr fun name _ => ⟨by simp [UsesLog, ReadsLog, EmptiesLog], ?_⟩
    rintro (_ | _) <;> simp [failWith, Never, UsesLog, ReadsLog, EmptiesLog]
  · refine never_usesLog_orFail.mpr fun name _ => ?_
    simp [Never, UsesLog, ReadsLog, EmptiesLog]
  · simp [writeConfig, Never, UsesLog, ReadsLog, EmptiesLog]

theorem Script.never_usesLog (s : Script) : s.handler.Never Action.UsesLog := by
  intro calls args
  cases s with
  | crash reason times =>
      simp only [handler]
      split <;> simp [logCall, Never, UsesLog, ReadsLog, EmptiesLog]
  | destroy =>
      refine never_usesLog_orFail.mpr ?_
      rintro (_ | object) _ <;> simp [Never, UsesLog, ReadsLog, EmptiesLog]
  | spawn =>
      refine never_usesLog_orFail.mpr fun name _ => ?_
      simp [Never, UsesLog, ReadsLog, EmptiesLog]
  | _ => simp [handler, logCall, Never, UsesLog, ReadsLog, EmptiesLog]

end CommandConsole
