import ClusterConsole.Console.Requests
import ClusterConsole.Console.Views

/-!
# One action

`Console.act` applies an action of the operator and tells what it asks of the
view's watcher. While a question is open only an answer counts. `run` carries out
a line of the command mode.
-/

namespace ClusterConsole.Console

open ClusterConsole.Background (Surroundings)
open ClusterConsole.Resource ClusterConsole.Status

/-- The line without the colons in front of it. -/
def commandText (input : String) : String :=
  String.ofList ((Text.trimList input.toList).dropWhile (· = ':'))

/-- Opens the view that a word names. -/
def openByWord (c : Console) (s : Surroundings) (word line : String) : Console × Option Command :=
  match Kind.ofWord? word with
  | some .containers =>
      if c.view.target.kind = .pods then c.drillDown s
      else (c.flash .warn "Select a pod to view its containers", none)
  | some kind => c.switchView s kind
  | none => (c.flash .error ("Unknown command: " ++ line), none)

/-- Carries out a line of the command mode. -/
def run (c : Console) (s : Surroundings) (line : String) : Console × Option Command :=
  match Text.words line with
  | [] => (c, none)
  | head :: words =>
      match Text.lower head, words with
      | "q", _ | "q!", _ | "quit", _ => ({ c with running := false }, none)
      | "ns", word :: _ | "namespace", word :: _ => c.setScope word
      | "pf", word :: _ | "port-forward", word :: _ => (c.requestForward (some word), none)
      | "bench", "stop" :: _ => (c.stopBenchmark, none)
      | "bench", _ => (c.startBenchmark s, none)
      | "sort", words => (c.sortByWords words, none)
      | "filter", words => (c.setFilter (Text.join " " words), none)
      | "refresh", word :: _ | "r", word :: _ => c.setInterval word
      | "refresh", [] | "r", [] => c.refresh s
      | word, _ => c.openByWord s word line

/-- While a filter is typed it is in force. -/
def syncFilter (c : Console) : Console :=
  if c.mode = .filter then c.setFilter (Text.trim c.input) else c

/-- Ends the input line and does what it says. -/
def submit (c : Console) (s : Surroundings) : Console × Option Command :=
  let line := c.input
  let filtering := decide (c.mode = .filter)
  let c := { c with input := "", mode := .normal }
  if filtering then (c.setFilter (Text.trim line), none) else c.run s (commandText line)

/-- Leaves the input line; a filter that was being typed is taken away. -/
def cancelInput (c : Console) : Console :=
  { c with filter := if c.mode = .filter then "" else c.filter, mode := .normal, input := "" }

/-- The answer to a question. -/
def answer (c : Console) (s : Surroundings) (a : Action) : Console :=
  match a with
  | .confirmYes =>
      let intent := c.question.map (·.intent)
      let c := { c with mode := .normal, question := none }
      match intent with
      | some intent => c.carryOut s intent
      | none => c
  | .confirmNo | .cancelInput =>
      { c with mode := .normal, question := none }.inform "Action cancelled"
  | _ => c

/-- Applies an action. -/
def act (c : Console) (s : Surroundings) (a : Action) : Console × Option Command :=
  if c.mode = .confirm then (c.answer s a, none)
  else
    match a with
    | .quit => ({ c with running := false }.inform "Exit requested", none)
    | .down => (c.moveSelection 1, none)
    | .up => (c.moveSelection (-1), none)
    | .pageDown => (c.moveSelection pageStep, none)
    | .pageUp => (c.moveSelection (-pageStep), none)
    | .top => (c.select 0, none)
    | .bottom => (c.select (c.visible.length - 1), none)
    | .enter => c.drillDown s
    | .back => c.goBack s
    | .refresh => c.refresh s
    | .startCommand => ({ c with mode := .command, input := "" }, none)
    | .startFilter => ({ c with mode := .filter, input := c.filter }, none)
    | .sort letter => (c.sortByLetter letter, none)
    | .forward => (c.requestForward none, none)
    | .startBenchmark => (c.startBenchmark s, none)
    | .stopBenchmark => (c.stopBenchmark, none)
    | .deleteSelected => (c.requestDelete, none)
    | .submitInput => c.submit s
    | .cancelInput => (c.cancelInput, none)
    | .backspace =>
        ({ c with input := String.ofList c.input.toList.dropLast }.syncFilter, none)
    | .inputChar ch => ({ c with input := c.input.push ch }.syncFilter, none)
    | .confirmYes | .confirmNo => (c, none)

end ClusterConsole.Console
