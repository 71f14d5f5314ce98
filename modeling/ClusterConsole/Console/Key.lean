import ClusterConsole.Console.Action
import ClusterConsole.Number.Decimal

/-!
# Keys

A key press is a key together with the modifiers that are held. `Key.action?`
says what it asks for in each mode; keys that ask for nothing are passed over.
-/

namespace ClusterConsole.Console

inductive KeyCode where
  | char (c : Char)
  | enter
  | escape
  | backspace
  | up
  | down
  | left
  | right
  | home
  | ending
  | pageUp
  | pageDown
  | tab
  | backTab
  | delete
  | insert
  | null
  | function (n : Nat)
  deriving DecidableEq, Repr, Inhabited

namespace KeyCode

/-- The keys with a name of their own. -/
def named : List (String × KeyCode) :=
  [("Enter", enter), ("Esc", escape), ("Backspace", backspace), ("Up", up), ("Down", down),
    ("Left", left), ("Right", right), ("Home", home), ("End", ending), ("PageUp", pageUp),
    ("PageDown", pageDown), ("Tab", tab), ("BackTab", backTab), ("Delete", delete),
    ("Insert", insert), ("Null", null)]

/-- The key that a text names: a character, a key by its name, or a function key by
its number. -/
def read? (text : String) : Option KeyCode :=
  match text.toList with
  | [c] => some (char c)
  | cs =>
      match named.find? fun k => k.1 == text, cs with
      | some k, _ => some k.2
      | none, 'F' :: ds => (Number.digits? ds).map function
      | none, _ => none

end KeyCode

/-- The modifiers that are held; `other` stands for those that no key is bound
with. -/
structure Modifiers where
  ctrl : Bool
  alt : Bool
  shift : Bool
  other : Bool
  deriving DecidableEq, Repr, Inhabited

namespace Modifiers

def none : Modifiers := ⟨false, false, false, false⟩

/-- Whether a character typed with them is the character itself. -/
def plain (m : Modifiers) : Bool := !m.ctrl && !m.alt && !m.other

end Modifiers

structure Key where
  code : KeyCode
  modifiers : Modifiers
  deriving DecidableEq, Repr, Inhabited

namespace Key

/-- Keys held with the control or the alternate key in normal mode. -/
def chord? (code : KeyCode) (m : Modifiers) : Option Action :=
  match code with
  | .char 'b' => if m.alt then some .stopBenchmark else some .startBenchmark
  | .char 'd' => if m.ctrl then some .deleteSelected else none
  | .char 'f' => if m.ctrl then some .pageDown else none
  | .char 'u' => if m.ctrl then some .pageUp else none
  | .char 'r' => if m.ctrl then some .refresh else none
  | _ => none

/-- Keys of normal mode that are held with neither of the two. -/
def command? : KeyCode → Option Action
  | .char 'q' => some .quit
  | .char 'j' | .down => some .down
  | .char 'k' | .up => some .up
  | .pageDown => some .pageDown
  | .pageUp => some .pageUp
  | .char 'g' | .home => some .top
  | .char 'G' | .ending => some .bottom
  | .enter => some .enter
  | .escape | .char 'p' => some .back
  | .function 5 => some .refresh
  | .char ':' => some .startCommand
  | .char '/' => some .startFilter
  | .char 'F' => some .forward
  | .char c => if c.isUpper then some (.sort c) else none
  | _ => none

/-- Keys of the modes with an input line. -/
def editing? (k : Key) : Option Action :=
  match k.code with
  | .escape => some .cancelInput
  | .enter => some .submitInput
  | .backspace => some .backspace
  | .char c => if k.modifiers.plain then some (.inputChar c) else none
  | _ => none

/-- Keys that answer a question. -/
def answer? : KeyCode → Option Action
  | .char 'y' | .char 'Y' | .enter => some .confirmYes
  | .char 'n' | .char 'N' | .escape => some .confirmNo
  | _ => none

/-- The key that leaves every mode. -/
def leaves (k : Key) : Bool := k.code == .char 'c' && k.modifiers.ctrl

/-- What a key press asks for. -/
def action? (mode : Mode) (k : Key) : Option Action :=
  if k.leaves then
    match mode with
    | .normal => some .quit
    | .command | .filter | .confirm => some .cancelInput
  else
    match mode with
    | .normal =>
        if k.modifiers.ctrl ∨ k.modifiers.alt then chord? k.code k.modifiers else command? k.code
    | .command | .filter => k.editing?
    | .confirm => answer? k.code

end Key

end ClusterConsole.Console
