/-!
# Decimal digits

Reading a run of ASCII digits as a natural number, with or without a sign and
with or without an upper bound. No other digits, separators or blanks are
accepted.
-/

namespace ClusterConsole.Number

/-- The digits' value, read from the most significant one. -/
def digitsValue (cs : List Char) : Nat :=
  cs.foldl (fun n c => 10 * n + (c.toNat - '0'.toNat)) 0

/-- The value of a non-empty list of ASCII digits. -/
def digits? (cs : List Char) : Option Nat :=
  if cs ≠ [] ∧ cs.all Char.isDigit then some (digitsValue cs) else none

/-- The value of a non-empty list of ASCII digits, if it is below `bound`. -/
def digitsBelow? (bound : Nat) (cs : List Char) : Option Nat :=
  (digits? cs).filter (· < bound)

/-- The value of an optional `+` and a non-empty list of ASCII digits, if it is
below `bound`. -/
def unsigned? (bound : Nat) : List Char → Option Nat
  | '+' :: cs => digitsBelow? bound cs
  | cs => digitsBelow? bound cs

/-- The first number that 64 bits do not hold. -/
def word64 : Nat := Nat.pow 2 64

/-- The number written with at least `width` digits, zeros in front. -/
def padded (width n : Nat) : String :=
  let s := toString n
  String.ofList (List.replicate (width - s.length) '0') ++ s

/-- The lower-case hexadecimal digit of a value below sixteen. -/
def hexDigit (n : Nat) : Char :=
  if n < 10 then Char.ofNat (48 + n) else Char.ofNat (87 + n)

/-- The value of a hexadecimal digit of either case. -/
def hexValue? (c : Char) : Option Nat :=
  if c.isDigit then some (c.toNat - 48)
  else if 'a' ≤ c ∧ c ≤ 'f' then some (c.toNat - 87)
  else if 'A' ≤ c ∧ c ≤ 'F' then some (c.toNat - 55)
  else none

end ClusterConsole.Number
