import ClusterConsole.Text.Cut

/-!
# Failures

`Failure` lists what can go wrong at the edges of the console; `message` is the
one line shown for it. A `Chain` is an error together with its causes, the
outermost first.
-/

namespace ClusterConsole.Status

inductive Failure where
  | alreadyForwarded (fqn : String)
  | notRunnable (target reason : String)
  | alreadyBenchmarking (target : String)
  | transport (fqn detail : String)
  | settingsNotLoaded (path detail : String)
  | notWatchable (path detail : String)
  deriving DecidableEq, Repr, Inhabited

namespace Failure

def message : Failure → String
  | alreadyForwarded fqn => "a port-forward already exists for " ++ fqn
  | notRunnable target reason => target ++ " is not runnable: " ++ reason
  | alreadyBenchmarking target =>
      "only one benchmark allowed at a time (" ++ target ++ " is running)"
  | transport fqn detail => "port-forward " ++ fqn ++ " failed: " ++ detail
  | settingsNotLoaded path detail => "failed to load benchmark config " ++ path ++ ": " ++ detail
  | notWatchable path detail => "unable to watch " ++ path ++ ": " ++ detail

end Failure

/-- An error and its causes, the outermost first. -/
abbrev Chain := List String

namespace Chain

/-- All messages on one line. -/
def full (c : Chain) : String := Text.join ": " c

/-- The error and at most two of its causes, one a line. -/
def compact (c : Chain) : String :=
  match c with
  | [] => ""
  | head :: causes => Text.join "\n" (head :: (causes.take 2).map ("caused by: " ++ ·))

/-- The error and at most two of its causes on one line. -/
def oneLine (c : Chain) : String :=
  (compact c).map fun ch => if ch = '\n' then ' ' else ch

end Chain

end ClusterConsole.Status
