import ClusterConsole.Number.Decimal

/-!
# Binary floating-point numbers of 64 bits

A `Binary64` is a sign and the 63 bits below it. For a number without a sign
those bits grow with the value, so rounding a quotient of natural numbers gives
the bits directly: a quotient in the binade of `2 ^ e` with the rounded
significand `q` has the bits `(e + 1074) * 2 ^ 52 + q`, and a significand that
is carried up to the next binade lands on that binade's first number.

`ofRatio` rounds to nearest, a tie to the even neighbour; `ofDecimal` reads a
decimal by it, and `fixed` writes a finite number with a fixed number of places
by exact division, a tie again to the even digit.
-/

namespace ClusterConsole.Number

/-- A floating-point number: its sign bit, and its exponent and significand
bits read as one natural number. -/
structure Binary64 where
  negative : Bool
  magnitude : Nat
  deriving DecidableEq, Repr, Inhabited

namespace Binary64

/-- The bits of infinity: every exponent bit and no other. -/
def infinityBits : Nat := 0x7ff * Nat.pow 2 52

def infinity : Binary64 := ⟨false, infinityBits⟩

def negInfinity : Binary64 := ⟨true, infinityBits⟩

def zero : Binary64 := ⟨false, 0⟩

/-- All 64 bits as one number. -/
def bits (x : Binary64) : Nat :=
  (if x.negative then Nat.pow 2 63 else 0) + x.magnitude

/-- The number's place in the total order of bit patterns: the negative ones
come first, from the largest magnitude down. -/
def rank (x : Binary64) : Int :=
  if x.negative then -(x.magnitude : Int) - 1 else x.magnitude

def compareTotal (x y : Binary64) : Ordering :=
  compare x.rank y.rank

/-- The quotient `num / den` rounded to the nearest natural number, a tie to
the even one. -/
def roundQuotient (num den : Nat) : Nat :=
  let q := num / den
  let r := num % den
  if 2 * r > den ∨ (2 * r = den ∧ q % 2 = 1) then q + 1 else q

/-- The exponent `e` (shifted by 1074) of the binade of `num / den`, for which
`2 ^ 52 ≤ num / (den * 2 ^ e) < 2 ^ 53`, or the least one there is. -/
def shiftedExponent (num den : Nat) : Nat :=
  let guess : Int := (num.log2 : Int) - den.log2 - 52
  let fits (e : Int) : Bool :=
    if e ≥ 0 then decide (Nat.pow 2 52 * (den * Nat.pow 2 e.toNat) ≤ num)
    else decide (Nat.pow 2 52 * den ≤ num * Nat.pow 2 (-e).toNat)
  let e := if fits guess then guess else guess - 1
  (e + 1074).toNat

/-- The bits of the number nearest to `num / den`; infinity from the middle
above the largest finite number on. -/
def ratioBits (num den : Nat) : Nat :=
  if num = 0 then 0 else
    let k := shiftedExponent num den
    let q :=
      if k ≥ 1074 then roundQuotient num (den * Nat.pow 2 (k - 1074))
      else roundQuotient (num * Nat.pow 2 (1074 - k)) den
    min infinityBits (k * Nat.pow 2 52 + q)

/-- The number nearest to `num / den`. -/
def ofRatio (num den : Nat) : Binary64 := ⟨false, ratioBits num den⟩

/-- The number nearest to a natural number. -/
def ofNat (n : Nat) : Binary64 := ofRatio n 1

/-- The number nearest to `m * 10 ^ e`. Exponents so large or small that the
result is infinite or zero for every `m` with that many digits are not raised
to a power. -/
def ofDecimal (negative : Bool) (m : Nat) (e : Int) : Binary64 :=
  if m = 0 then ⟨negative, 0⟩
  else
    let top : Int := (toString m).length + e
    if top > 400 then ⟨negative, infinityBits⟩
    else if top < -400 then ⟨negative, 0⟩
    else if e ≥ 0 then ⟨negative, ratioBits (m * Nat.pow 10 e.toNat) 1⟩
    else ⟨negative, ratioBits m (Nat.pow 10 (-e).toNat)⟩

/-- A finite number's significand and the exponent of two (shifted by 1074) it
is scaled by. -/
def parts (magnitude : Nat) : Nat × Nat :=
  let e := magnitude / Nat.pow 2 52
  let f := magnitude % Nat.pow 2 52
  if e = 0 then (f, 0) else (Nat.pow 2 52 + f, e - 1)

/-- A finite magnitude as a fraction of natural numbers. -/
def fraction (magnitude : Nat) : Nat × Nat :=
  let (m, k) := parts magnitude
  if k ≥ 1074 then (m * Nat.pow 2 (k - 1074), 1) else (m, Nat.pow 2 (1074 - k))

/-- The rounded sum of two finite numbers without a sign. -/
def addUnsigned (x y : Binary64) : Binary64 :=
  let (a, b) := fraction x.magnitude
  let (c, d) := fraction y.magnitude
  ofRatio (a * d + c * b) (b * d)

/-- The rounded quotient of two finite numbers without a sign; the divisor is
not zero. -/
def divUnsigned (x y : Binary64) : Binary64 :=
  let (a, b) := fraction x.magnitude
  let (c, d) := fraction y.magnitude
  ofRatio (a * d) (b * c)

/-- A finite number without a sign, written with `places` digits after the
point. -/
def fixed (places : Nat) (x : Binary64) : String :=
  if x.magnitude ≥ infinityBits then "inf" else
    let (a, b) := fraction x.magnitude
    let n := roundQuotient (a * Nat.pow 10 places) b
    let whole := toString (n / Nat.pow 10 places)
    if places = 0 then whole else whole ++ "." ++ padded places (n % Nat.pow 10 places)

/-! ## Reading -/

/-- The longest run of digits at the front, and what follows it. -/
def spanDigits (cs : List Char) : List Char × List Char :=
  (cs.takeWhile Char.isDigit, cs.dropWhile Char.isDigit)

/-- A sign at the front, true for a minus, and what follows it. -/
def sign : List Char → Bool × List Char
  | '-' :: cs => (true, cs)
  | '+' :: cs => (false, cs)
  | cs => (false, cs)

/-- An exponent: nothing, or `e` in either case, a sign or none, and digits. -/
def exponent? : List Char → Option Int
  | [] => some 0
  | c :: cs =>
      if c = 'e' ∨ c = 'E' then
        let (neg, ds) := sign cs
        (digits? ds).map fun n => if neg then -(n : Int) else n
      else none

/-- A decimal without a sign: digits with a point among them or none, at least
one digit, then an exponent. -/
def unsignedDecimal? (negative : Bool) (cs : List Char) : Option Binary64 :=
  let (whole, rest) := spanDigits cs
  let (places, rest) :=
    match rest with
    | '.' :: r => spanDigits r
    | r => ([], r)
  if whole = [] ∧ places = [] then none
  else (exponent? rest).map fun e =>
    ofDecimal negative (digitsValue (whole ++ places)) (e - places.length)

/-- The number a text denotes, if that is not a NaN: a decimal, or the words
`inf` and `infinity` in any case, with a sign or without. -/
def read? (cs : List Char) : Option Binary64 :=
  let (neg, body) := sign cs
  let word := String.ofList (body.map Char.toLower)
  if word = "inf" ∨ word = "infinity" then some ⟨neg, infinityBits⟩
  else unsignedDecimal? neg body

end Binary64

end ClusterConsole.Number
