import ClusterConsole.Console.State
import ClusterConsole.Screen.Strip
import ClusterConsole.Screen.Wrap

/-!
# The screen

The screen has a bar on top, a panel, and a bar at the bottom. The top bar names
the cluster, the context, the scope and the view; the bottom bar shows the input
line, the open question, or the status. The panel holds the table, or the reason
why there is none.

The table starts at the first row as long as the selected one is in sight, and
otherwise as far down as it takes.
-/

namespace ClusterConsole.Screen

/-! ## Bars -/

/-- A piece of a bar. -/
structure Segment where
  text : String
  paint : Paint
  deriving DecidableEq, Repr, Inhabited

/-- A bar of pieces, one behind the other. -/
def bar (width : Nat) (base : Paint) (segments : List Segment) : Strip :=
  (segments.foldl (fun acc s => acc.1.write .running acc.2 width s.paint s.text.toList)
    (Strip.ofWidth width base, 0)).1

/-- The characters of a name in the top bar. -/
def nameLimit : Nat := 24

/-- The text with a blank on both sides. -/
def padded (text : String) : String := " " ++ text ++ " "

/-- The pieces of the top bar. -/
def topSegments (c : Console) : List Segment :=
  let piece (text : String) (bg : Color) : Segment := ⟨padded text, Paint.strong .white bg⟩
  [piece (compactText c.cluster nameLimit) .first,
    piece ("ctx " ++ compactText c.context nameLimit) .second,
    piece ("ns " ++ c.scope.label) .third,
    piece (Text.lower c.view.target.kind.title) .fourth] ++
  (if c.registry.sessions = [] then []
    else [⟨" pf:" ++ toString c.registry.sessions.length, Paint.of .accent .ground⟩])

/-- The characters of the benchmark in the bottom bar. -/
def benchmarkLimit : Nat := 40

/-- The pieces of the bottom bar. -/
def bottomSegments (c : Console) (time : Int) (width : Nat) : List Segment :=
  match c.mode with
  | .command | .filter =>
      let sign := if c.mode = .command then ":" else "/"
      [⟨" input ", Paint.strong .black .accent⟩,
        ⟨" " ++ sign ++ c.input ++ "_", Paint.of .white .ground⟩]
  | .confirm =>
      let prompt := (c.question.map (·.prompt)).getD ""
      [⟨padded (compactText prompt (width - 4)), Paint.strong .black .warning⟩]
  | .normal =>
      let (fg, bg) := statusColors c.status.level
      let status := compactText c.status.text (max 24 (width - 24))
      (c.benchmarkText? time).toList.map (fun text =>
        (⟨padded (compactText text benchmarkLimit), Paint.strong .black .warning⟩ : Segment)) ++
      [⟨padded status, Paint.strong fg bg⟩]

/-! ## The panel -/

/-- Where columns of equal shares lie in a width: the first cell and the one
behind the last, for each. One cell is left free between two columns. -/
def columnSpans (columns width : Nat) : List (Nat × Nat) :=
  let share := (columnShares columns).headD 100
  let unit := 100 * columns
  let size := min (width * share * columns) ((width - (columns - 1)) * 100)
  let place (n : Nat) : Nat := min width ((n + unit / 2) / unit)
  (List.range columns).map fun i =>
    (place (i * (size + unit)), place (i * (size + unit) + size))

/-- The cells that the mark of the selected row takes. -/
def markWidth : Nat := 2

/-- The colour of a panel that nothing is painted on. -/
def panelPaint : Paint := ⟨none, some .panel, false⟩

/-- A line of a table: for each column a text and its paint. -/
def tableLine (width indent : Nat) (base : Paint) (cells : List (String × Paint)) : Strip :=
  let strip := Strip.ofWidth width panelPaint
  let strip := strip.cover 0 width base
  (cells.zip (columnSpans cells.length (width - indent))).foldl (fun s (cell, span) =>
    let s := s.cover (indent + span.1) (span.2 - span.1) cell.2
    (s.write .label (indent + span.1) (indent + span.2) cell.2
      (Text.beforeList '\n' cell.1.toList)).1) strip

/-- The line of column names. -/
def headerLine (c : Console) (width indent : Nat) : Strip :=
  tableLine width indent (Paint.text .accent)
    (c.table.header.mapIdx fun i name =>
      (headerLabel name i c.view.sort, ⟨none, none, true⟩))

/-- The line of an entry; the selected one is marked. -/
def entryLine (width indent : Nat) (selected : Bool) (e : Snapshot.Entry) : Strip :=
  let cells := e.fields.mapIdx fun i text =>
    let (fg, weight) := cellStyle e i
    (text, (⟨some fg, none, weight == .bold⟩ : Paint))
  let strip := tableLine width indent ⟨none, none, false⟩ cells
  if selected then
    ((strip.write .label 0 indent ⟨none, none, false⟩ "> ".toList).1).cover 0 width
      ⟨none, some .selected, true⟩
  else strip

/-- The line of a panel's frame with its title. -/
def titleLine (width : Nat) (paint : Paint) (title : String) : Strip :=
  ((Strip.ofWidth width paint).write .label 1 (width - 1) paint title.toList).1

/-- A panel of `height` lines, frame included. -/
def framed (width height : Nat) (paint : Paint) (title : String) (inside : List Strip) :
    List Strip :=
  let edge := Strip.ofWidth 1 paint
  let room := height - 2
  let filled := (inside.take room) ++
    List.replicate (room - inside.length) (Strip.ofWidth (width - 2) panelPaint)
  titleLine width paint title :: filled.map (fun s => edge ++ s ++ edge) ++
    [Strip.ofWidth width paint]

/-- The panel that says why there is no table. -/
def errorPanel (c : Console) (error : String) (width height : Nat) : List Strip :=
  let paint := Paint.of .failure .panel
  let lines := (Text.linesFrom [] error.toList).flatMap fun cs =>
    Wrap.line (width - 2) (Text.glyphs cs)
  framed width height paint (c.view.target.kind.title ++ " Error")
    (lines.map fun gs =>
      (Strip.writeFrom .running (width - 2) paint gs 0 (Strip.ofWidth (width - 2) paint)).1)

/-- The panel with the table. -/
def tablePanel (c : Console) (width height : Nat) : List Strip :=
  let inner := width - 2
  let room := height - 3
  let selected := c.selectedIndex?
  let indent := if selected.isSome then markWidth else 0
  let first := (selected.getD 0 + 1) - room
  let rows := ((c.visible.drop first).take room).mapIdx fun i e =>
    entryLine inner indent (selected == some (first + i)) e
  let title := c.title ++ (if c.filter = "" then "" else " </" ++ c.filter ++ ">")
  framed width height (Paint.of .accent .panel) title (headerLine c inner indent :: rows)

/-- The panel of a console. -/
def panel (c : Console) (width height : Nat) : List Strip :=
  match c.tableError, c.table.entries with
  | some error, [] => errorPanel c error width height
  | _, _ => tablePanel c width height

/-- All lines of the screen. -/
def frame (c : Console) (time : Int) (width height : Nat) : List Strip :=
  [bar width (Paint.of .white .ground) (topSegments c)] ++ panel c width (height - 2) ++
    [bar width ⟨none, some .ground, false⟩ (bottomSegments c time width)]

end ClusterConsole.Screen
