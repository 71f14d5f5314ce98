/-!
# Modes and actions

What the operator can ask for. The mode says how keys are read: as commands of
their own, as characters of a command line or a filter, or as the answer to a
question.
-/

namespace ClusterConsole.Console

inductive Mode where
  | normal
  | command
  | filter
  | confirm
  deriving DecidableEq, Repr, Inhabited

namespace Mode

def all : List Mode := [normal, command, filter, confirm]

def name : Mode → String
  | normal => "Normal"
  | command => "Command"
  | filter => "Filter"
  | confirm => "Confirm"

end Mode

inductive Action where
  | quit
  | down
  | up
  | pageDown
  | pageUp
  | top
  | bottom
  | enter
  | back
  | refresh
  | startCommand
  | startFilter
  /-- Sort by the column that the letter stands for in the view. -/
  | sort (letter : Char)
  | forward
  | startBenchmark
  | stopBenchmark
  | deleteSelected
  | submitInput
  | cancelInput
  | backspace
  | inputChar (c : Char)
  | confirmYes
  | confirmNo
  deriving DecidableEq, Repr, Inhabited

namespace Action

/-- The actions without a character, each with its name. -/
def named : List (String × Action) :=
  [("Quit", quit), ("Down", down), ("Up", up), ("PageDown", pageDown), ("PageUp", pageUp),
    ("Top", top), ("Bottom", bottom), ("Enter", enter), ("Back", back), ("Refresh", refresh),
    ("StartCommand", startCommand), ("StartFilter", startFilter), ("PortForward", forward),
    ("BenchStart", startBenchmark), ("BenchStop", stopBenchmark),
    ("DeleteSelected", deleteSelected), ("SubmitInput", submitInput),
    ("CancelInput", cancelInput), ("Backspace", backspace), ("ConfirmYes", confirmYes),
    ("ConfirmNo", confirmNo)]

/-- The action of that name, with the character that it may carry. -/
def ofName? (name : String) (c : Char) : Option Action :=
  match name with
  | "Sort" => some (sort c)
  | "InputChar" => some (inputChar c)
  | name => (named.find? fun p => p.1 == name).map (·.2)

/-- The name of an action and the character that it carries. -/
def name : Action → String × Option Char
  | sort c => ("Sort", some c)
  | inputChar c => ("InputChar", some c)
  | a => (((named.find? fun p => p.2 == a).map (·.1)).getD "", none)

end Action

end ClusterConsole.Console
