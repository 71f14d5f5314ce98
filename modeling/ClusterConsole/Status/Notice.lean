import ClusterConsole.Text.Cut

/-!
# The status line

A notice is a message with a level. The status line shows the first line of the
last notice, cut to 180 characters; it is cleared on request only while it still
shows the message in question.
-/

namespace ClusterConsole.Status

inductive Level where
  | info
  | warn
  | error
  deriving DecidableEq, Repr, Inhabited

namespace Level

def all : List Level := [info, warn, error]

def name : Level → String
  | info => "Info"
  | warn => "Warn"
  | error => "Error"

end Level

/-- A message to the operator. -/
structure Notice where
  level : Level
  text : String
  deriving DecidableEq, Repr, Inhabited

/-- The number of characters the status line holds. -/
def lineLimit : Nat := 180

/-- The first line, cut to the limit; a cut line ends in an ellipsis. -/
def statusText (text : String) : String :=
  let line := ((Text.linesFrom [] text.toList).head?).getD []
  if line.length ≤ lineLimit then String.ofList line
  else String.ofList (line.take (lineLimit - 1) ++ ['…'])

/-- What the status line shows. -/
structure Line where
  text : String
  level : Level
  deriving DecidableEq, Repr, Inhabited

namespace Line

def blank : Line := ⟨"", .info⟩

/-- The line after a notice. -/
def ofNotice (n : Notice) : Line := ⟨statusText n.text, n.level⟩

/-- The line cleared, if it still shows the message. -/
def resetIfShowing (line : Line) (shown : String) : Line :=
  if line.text = statusText shown then blank else line

end Line

end ClusterConsole.Status
