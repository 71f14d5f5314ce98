import ClusterConsole.Number.Decimal
import ClusterConsole.Resource.Scope
import ClusterConsole.Text.Cut

/-!
# Command line

The words behind the program's name are options. A long option stands alone or
with its value behind an equals sign, short ones may share a word, and a value
may also be the next word, as long as that does not look like an option. After
the word `--` nothing is an option any more, and nothing else is expected.

Each option may be given once. A value in a word of its own is looked at only
when the next option or the end of the line is reached, so a word that names no
option is found before a fault in the value in front of it.
-/

namespace ClusterConsole.Launch

open ClusterConsole.Resource

/-- The options. -/
inductive Switch where
  | refresh
  | ns
  | allNamespaces
  | logFilter
  | home
  | help
  | version
  deriving DecidableEq, Repr, Inhabited

namespace Switch

def all : List Switch := [refresh, ns, allNamespaces, logFilter, home, help, version]

/-- The word for an option, without its hyphens. -/
def long : Switch → String
  | refresh => "refresh-ms"
  | ns => "namespace"
  | allNamespaces => "all-namespaces"
  | logFilter => "log-filter"
  | home => "home"
  | help => "help"
  | version => "version"

/-- The letter for an option. -/
def short? : Switch → Option Char
  | ns => some 'n'
  | allNamespaces => some 'A'
  | help => some 'h'
  | version => some 'V'
  | refresh | logFilter | home => none

def takesValue : Switch → Bool
  | refresh | ns | logFilter | home => true
  | allNamespaces | help | version => false

def ofLong? (word : String) : Option Switch := all.find? fun s => s.long == word

def ofShort? (letter : Char) : Option Switch := all.find? fun s => s.short? == some letter

end Switch

/-- Why a command line gives no arguments. -/
inductive Refusal where
  | helpWanted
  | versionWanted
  /-- A word names no option. -/
  | unknown
  /-- An option is left without a value, or with an empty one that it does not take. -/
  | valueMissing
  | valueInvalid
  /-- An option is given twice. -/
  | repeated
  /-- An option that takes no value is given one. -/
  | valueUnwanted
  deriving DecidableEq, Repr, Inhabited

/-- The words for a refusal; the first two are no faults. -/
def Refusal.message : Refusal → String
  | .helpWanted => "help wanted"
  | .versionWanted => "version wanted"
  | .unknown => "unexpected argument"
  | .valueMissing => "an option is left without its value"
  | .valueInvalid => "invalid value for an option"
  | .repeated => "an option cannot be used more than once"
  | .valueUnwanted => "unexpected value for an option"

/-- What a command line says. The refresh rate is in milliseconds. -/
structure Arguments where
  refresh : Option Nat
  ns : Option String
  allNamespaces : Bool
  logFilter : String
  home : Option String
  deriving DecidableEq, Repr, Inhabited

namespace Arguments

/-- What an empty command line says. -/
def default : Arguments := ⟨none, none, false, "info", none⟩

/-- The arguments with the value of one option. -/
def set (a : Arguments) (s : Switch) (value : String) : Except Refusal Arguments :=
  match s with
  | .refresh =>
      match Number.unsigned? Number.word64 value.toList with
      | some ms => .ok { a with refresh := some ms }
      | none => .error .valueInvalid
  | .ns => .ok { a with ns := some value }
  | .logFilter => .ok { a with logFilter := value }
  | .home => if value = "" then .error .valueMissing else .ok { a with home := some value }
  | .allNamespaces => .ok { a with allNamespaces := true }
  | .help => .error .helpWanted
  | .version => .error .versionWanted

/-! ## Reading -/

/-- The state of the reading: the arguments so far, the options they come from,
and an option whose value is still pending, with the word taken for it. -/
structure Reading where
  found : Arguments
  seen : List Switch
  pending : Option (Switch × Option String)
  deriving Repr

namespace Reading

def start : Reading := ⟨Arguments.default, [], none⟩

/-- Takes an option with its value. -/
def take (r : Reading) (s : Switch) (value : String) : Except Refusal Reading :=
  if r.seen.contains s then .error .repeated
  else (r.found.set s value).map fun found => ⟨found, s :: r.seen, none⟩

/-- Takes the option whose value is open. -/
def settle (r : Reading) : Except Refusal Reading :=
  match r.pending with
  | none => .ok r
  | some (_, none) => .error .valueMissing
  | some (s, some value) => { r with pending := none }.take s value

/-- An option with the value that is written beside it, if there is one. -/
def option (r : Reading) (s : Switch) (beside : Option String) : Except Refusal Reading :=
  match s.takesValue, beside with
  | false, none => r.settle.bind fun r => r.take s ""
  | false, some _ => .error .valueUnwanted
  | true, some value => r.settle.bind fun r => r.take s value
  | true, none => r.settle.map fun r => { r with pending := some (s, none) }

/-- A word of long form, without its hyphens. -/
def longWord (r : Reading) (word : List Char) : Except Refusal Reading :=
  let (name, beside) :=
    match Text.cutList '=' word with
    | some (name, value) => (name, some (String.ofList value))
    | none => (word, none)
  match Switch.ofLong? (String.ofList name) with
  | some s => r.option s beside
  | none => .error .unknown

/-- A word of short options, without its hyphen. -/
def shortWord (r : Reading) : List Char → Except Refusal Reading
  | [] => .ok r
  | c :: cs =>
      match Switch.ofShort? c with
      | none => .error .unknown
      | some s =>
          if s.takesValue then
            match cs with
            | [] => r.option s none
            | '=' :: value => r.option s (some (String.ofList value))
            | value => r.option s (some (String.ofList value))
          else (r.option s none).bind fun r => shortWord r cs

/-- A word that is no option: the open value, or one too many. -/
def plainWord (r : Reading) (word : String) : Except Refusal Reading :=
  match r.pending with
  | some (s, none) => .ok { r with pending := some (s, some word) }
  | _ => .error .unknown

/-- The reading of one word. -/
def word (r : Reading) (word : String) : Except Refusal Reading :=
  match word.toList with
  | '-' :: '-' :: cs => r.longWord cs
  | '-' :: c :: cs => r.shortWord (c :: cs)
  | _ => r.plainWord word

/-- The reading of the words that are left. -/
def words (r : Reading) : List String → Except Refusal Reading
  | [] => r.settle
  | "--" :: rest => if rest.isEmpty then r.settle else .error .unknown
  | w :: rest => (r.word w).bind fun r => words r rest

end Reading

/-- The arguments in the words behind the program's name. -/
def read (words : List String) : Except Refusal Arguments :=
  (Reading.start.words words).map (·.found)

/-! ## What they ask for -/

/-- The scope to start with; `standard` is the namespace of the cluster's access. -/
def scope (a : Arguments) (standard : String) : Scope :=
  if a.allNamespaces then .all
  else
    match a.ns with
    | some ns => Scope.ofWord ns
    | none => .named standard

end Arguments

/-- The shortest refresh interval in milliseconds. -/
def shortestInterval : Nat := 500

/-- The refresh interval where nothing is set. -/
def standardInterval : Nat := 2000

/-- An interval that is long enough. -/
def clampInterval (ms : Nat) : Nat := max ms shortestInterval

/-- The interval to start with: the command line's, else the configured one. -/
def Arguments.interval (a : Arguments) (configured : Option Nat) : Nat :=
  clampInterval ((a.refresh.or configured).getD standardInterval)

end ClusterConsole.Launch
