import ClusterConsole.Number.Binary64
import ClusterConsole.Text.Blank

/-!
# Ages

An age is written in its largest whole unit. Reading accepts several groups of
digits and units in a row and adds them up; the sum and every product stop at
the largest 64-bit number.
-/

namespace ClusterConsole.Resource.Age

open ClusterConsole.Number

/-- An age of so many seconds; a negative one counts as none. -/
def write (seconds : Int) : String :=
  let s := seconds.toNat
  if s ≥ 86400 then toString (s / 86400) ++ "d"
  else if s ≥ 3600 then toString (s / 3600) ++ "h"
  else if s ≥ 60 then toString (s / 60) ++ "m"
  else toString s ++ "s"

/-- The seconds in a unit. -/
def unitSeconds? : Char → Option Nat
  | 's' => some 1
  | 'm' => some 60
  | 'h' => some 3600
  | 'd' => some 86400
  | 'y' => some 31536000
  | _ => none

/-- The largest number of seconds that a reading keeps. -/
def top : Nat := word64 - 1

/-- The seconds of the groups that are left, added to `total`; `run` holds the
digits of the open group and `closed` tells whether a group came before. -/
def readFrom (total : Nat) (run : List Char) (closed : Bool) : List Char → Option Nat
  | [] => if closed ∧ run = [] then some total else none
  | c :: cs =>
      if c.isDigit then readFrom total (run ++ [c]) closed cs
      else
        (unitSeconds? c).bind fun unit =>
          (digitsBelow? word64 run).bind fun n =>
            readFrom (min top (total + min top (n * unit))) [] true cs

/-- The seconds that an age denotes. -/
def read? (cell : String) : Option Nat :=
  readFrom 0 [] false (Text.trimList cell.toList)

end ClusterConsole.Resource.Age
