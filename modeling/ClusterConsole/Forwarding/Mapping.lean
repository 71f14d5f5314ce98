import ClusterConsole.Number.Decimal
import ClusterConsole.Text.Cut

/-!
# Port mappings

A mapping joins a local port to a port of a pod; ports lie between 1 and 65535.
It is read from `local:remote` or from one port for both ends, and what follows
a slash on either side is ignored. `firstTcpPort?` picks the default port from a
PORTS cell.
-/

namespace ClusterConsole.Forwarding

open ClusterConsole.Number

structure Mapping where
  localPort : Nat
  remotePort : Nat
  deriving DecidableEq, Repr, Inhabited

/-- The first number that is no port. -/
def portBound : Nat := 65536

/-- A port number: not zero and below the bound. -/
def port? (cs : List Char) : Option Nat :=
  (unsigned? portBound cs).filter (· ≠ 0)

namespace Mapping

/-- The mapping as text. -/
def text (m : Mapping) : String := toString m.localPort ++ ":" ++ toString m.remotePort

/-- One side of a mapping: trimmed, cut at a slash and trimmed again. -/
def side? (cs : List Char) : Option Nat :=
  port? (Text.trimList (Text.beforeList '/' (Text.trimList cs)))

/-- The mapping that a text denotes. -/
def read? (source : String) : Option Mapping :=
  let cs := Text.trimList source.toList
  let (a, b) := (Text.cutList ':' cs).getD (cs, cs)
  (side? a).bind fun l => (side? b).map fun r => ⟨l, r⟩

/-- The same port on both ends. -/
def same (port : Nat) : Mapping := ⟨port, port⟩

end Mapping

/-- What follows the last `sep`, or all of the list. -/
def afterLast (sep : Char) (cs : List Char) : List Char :=
  (Text.beforeList sep cs.reverse).reverse

/-- The port of one entry of a PORTS cell, if it is a TCP port. -/
def tcpPort? (entry : List Char) : Option Nat :=
  let entry := afterLast ':' (Text.trimList entry)
  let (port, protocol) := (Text.cutList '/' entry).getD (entry, ['T', 'C', 'P'])
  if (Text.trimList protocol).map Char.toUpper = ['T', 'C', 'P'] then port? (Text.trimList port)
  else none

/-- The first usable TCP port of a PORTS cell. -/
def firstTcpPort? (ports : String) : Option Nat :=
  (Text.splitList ',' ports.toList).findSome? tcpPort?

end ClusterConsole.Forwarding
