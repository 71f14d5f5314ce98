import ClusterConsole.Snapshot.Sorting
import ClusterConsole.Status.Notice

/-!
# Colours and labels

The colours of the screen and what they stand for: rows that are new are green
and rows that are gone are grey, a cell that has changed stands out, and the
status line wears the colour of its level. The header marks the column that the
table is sorted by.
-/

namespace ClusterConsole.Screen

open ClusterConsole.Snapshot ClusterConsole.Status

inductive Color where
  /-- The colour of the terminal itself. -/
  | standard
  | black
  | white
  | rgb (red green blue : Nat)
  deriving DecidableEq, Repr, Inhabited

namespace Color

def ground : Color := rgb 9 15 25
def panel : Color := rgb 16 27 44
def selected : Color := rgb 24 36 58
def accent : Color := rgb 52 211 153
def muted : Color := rgb 140 156 178
def warning : Color := rgb 251 191 36
def failure : Color := rgb 248 113 113
def added : Color := rgb 74 222 128
def changed : Color := rgb 96 165 250
def first : Color := rgb 17 94 89
def second : Color := rgb 30 64 175
def third : Color := rgb 55 48 163
def fourth : Color := rgb 82 24 124

end Color

inductive Weight where
  | normal
  | bold
  | dim
  deriving DecidableEq, Repr, Inhabited

/-- The colour and the weight of a cell of an entry. -/
def cellStyle (e : Entry) (column : Nat) : Color × Weight :=
  match e.change with
  | .added => (.added, .normal)
  | .removed => (.muted, .dim)
  | .updated => if (e.deltas[column]?.join).isSome then (.changed, .bold) else (.white, .normal)
  | .unchanged => (.white, .normal)

/-- The colours of the status line, the text's first. -/
def statusColors : Level → Color × Color
  | .info => (.white, .second)
  | .warn => (.black, .warning)
  | .error => (.black, .failure)

/-- The name of a column, marked if the table is sorted by it. -/
def headerLabel (name : String) (column : Nat) (sort : SortColumn) : String :=
  if column = sort.index then name ++ (if sort.ascending then "↑" else "↓") else name

/-- The text, cut to so many characters; a cut text ends in an ellipsis. -/
def compactText (text : String) (limit : Nat) : String :=
  if text.length ≤ limit then text
  else String.ofList (text.toList.take (limit - 1) ++ ['…'])

/-- The hundredths of the width that each of the columns is given. -/
def columnShares (columns : Nat) : List Nat :=
  if columns = 0 then [100] else List.replicate columns (max 1 (100 / columns))

end ClusterConsole.Screen
