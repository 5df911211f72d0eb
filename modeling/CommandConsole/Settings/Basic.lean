/-!
# Settings

What a host can adjust about the console, with the values that hold where
nothing is said.
-/

namespace CommandConsole

structure Settings where
  /-- How many lines the history keeps. -/
  maxHistory : UInt64 := 100
  /-- What stands in front of a line in the log when it is run. -/
  executionSymbol : Char := '>'
  /-- Command names are suggested while their distance is below this. -/
  matchThreshold : UInt64 := 3
  deriving DecidableEq, Repr, Inhabited

end CommandConsole
