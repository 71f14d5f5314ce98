import ClusterConsole.Number.Decimal

/-!
# Calendar and clock

A point in time is a number of seconds since the start of 1970 in universal
time. `Moment` is the same point as a date and a time of day in the Gregorian
calendar, `write` its text in RFC 3339, and `read?` the reading of such a text.
The reading allows what ISO 8601 leaves open: a blank for the `T`, no separators,
a time of day cut after the hours or the minutes, and a fraction of the second,
which is dropped.
-/

namespace ClusterConsole.Time

open ClusterConsole.Number

/-- The nanoseconds in a second. -/
def nanosPerSecond : Nat := 1000000000

/-- A date and a time of day. -/
structure Moment where
  year : Nat
  month : Nat
  day : Nat
  hour : Nat
  minute : Nat
  second : Nat
  deriving DecidableEq, Repr, Inhabited

namespace Moment

/-- The days from the start of 1970 to a date. The year is taken to start in
March, so that a leap day is its last. -/
def dayNumber (year month day : Nat) : Int :=
  let y : Int := if month ≤ 2 then year - 1 else year
  let era := y.fdiv 400
  let yoe := y - era * 400
  let shifted : Int := (month + 9) % 12
  let doy := (153 * shifted + 2) / 5 + day - 1
  era * 146097 + yoe * 365 + yoe / 4 - yoe / 100 + doy - 719468

/-- The seconds since the start of 1970. -/
def toSeconds (m : Moment) : Int :=
  dayNumber m.year m.month m.day * 86400 + (m.hour * 3600 + m.minute * 60 + m.second : Nat)

/-- The date so many days after the start of 1970. -/
def dateOfDay (n : Int) : Nat × Nat × Nat :=
  let z := n + 719468
  let era := z.fdiv 146097
  let doe := z - era * 146097
  let yoe := (doe - doe / 1460 + doe / 36524 - doe / 146096) / 365
  let doy := doe - (365 * yoe + yoe / 4 - yoe / 100)
  let mp := (5 * doy + 2) / 153
  let day := doy - (153 * mp + 2) / 5 + 1
  let month := if mp < 10 then mp + 3 else mp - 9
  let year := yoe + era * 400 + (if month ≤ 2 then 1 else 0)
  (year.toNat, month.toNat, day.toNat)

/-- The moment so many seconds after the start of 1970. -/
def ofSeconds (s : Int) : Moment :=
  let (year, month, day) := dateOfDay (s.fdiv 86400)
  let t := (s.fmod 86400).toNat
  ⟨year, month, day, t / 3600, t / 60 % 60, t % 60⟩

/-- The moment in RFC 3339, in universal time. -/
def write (m : Moment) : String :=
  padded 4 m.year ++ "-" ++ padded 2 m.month ++ "-" ++ padded 2 m.day ++ "T" ++
    padded 2 m.hour ++ ":" ++ padded 2 m.minute ++ ":" ++ padded 2 m.second ++ "Z"

/-- The moment as digits alone, the date and the time of day joined by a hyphen. -/
def stamp (m : Moment) : String :=
  padded 4 m.year ++ padded 2 m.month ++ padded 2 m.day ++ "-" ++
    padded 2 m.hour ++ padded 2 m.minute ++ padded 2 m.second

def isLeap (year : Nat) : Bool := year % 4 == 0 && (year % 100 != 0 || year % 400 == 0)

def daysInMonth (year month : Nat) : Nat :=
  if month = 2 then (if isLeap year then 29 else 28)
  else if month = 4 ∨ month = 6 ∨ month = 9 ∨ month = 11 then 30 else 31

/-- Whether the date and the time of day exist. A leap second is allowed. -/
def valid (m : Moment) : Bool :=
  1 ≤ m.month && m.month ≤ 12 && 1 ≤ m.day && m.day ≤ daysInMonth m.year m.month &&
    m.hour ≤ 23 && m.minute ≤ 59 && m.second ≤ 60

end Moment

/-! ## Reading -/

/-- A number of exactly `n` digits, and the rest. -/
def fixedDigits? (n : Nat) (cs : List Char) : Option (Nat × List Char) :=
  if cs.length < n then none
  else (digits? (cs.take n)).map fun v => (v, cs.drop n)

/-- The rest after a separator that may be left out. -/
def skip (sep : Char) : List Char → List Char
  | c :: cs => if c = sep then cs else c :: cs
  | [] => []

/-- Two more digits, with a separator in front exactly if `separated`. -/
def nextPair? (separated : Bool) (sep : Char) (cs : List Char) : Option (Nat × List Char) :=
  if separated then
    match cs with
    | c :: cs => if c = sep then fixedDigits? 2 cs else none
    | [] => none
  else fixedDigits? 2 cs

/-- A date, and the rest. -/
def readDate? (cs : List Char) : Option ((Nat × Nat × Nat) × List Char) :=
  (fixedDigits? 4 cs).bind fun (y, cs) =>
    let separated := cs.head? == some '-'
    (nextPair? separated '-' cs).bind fun (m, cs) =>
      (nextPair? separated '-' cs).map fun (d, cs) => ((y, m, d), cs)

/-- A time of day of hours, minutes and seconds, the later ones of which may be
left out, and the rest. -/
def readClock? (cs : List Char) : Option ((Nat × Nat × Nat) × List Char) :=
  (fixedDigits? 2 cs).bind fun (h, cs) =>
    let separated := cs.head? == some ':'
    match nextPair? separated ':' cs with
    | none => if separated then none else some ((h, 0, 0), cs)
    | some (m, cs) =>
        match nextPair? separated ':' cs with
        | none => if cs.head? == some ':' then none else some ((h, m, 0), cs)
        | some (s, cs) => some ((h, m, s), cs)

/-- The rest after a fraction of the second, if there is one. -/
def skipFraction? (cs : List Char) : Option (List Char) :=
  match cs with
  | c :: rest =>
      if c = '.' ∨ c = ',' then
        let ds := rest.takeWhile Char.isDigit
        if 1 ≤ ds.length ∧ ds.length ≤ 9 then some (rest.drop ds.length) else none
      else some cs
  | [] => some cs

/-- The seconds that an offset from universal time adds. -/
def readOffset? : List Char → Option Int
  | ['Z'] | ['z'] => some 0
  | sign :: cs =>
      if sign = '+' ∨ sign = '-' then
        (readClock? cs).bind fun ((h, m, s), rest) =>
          let n : Nat := h * 3600 + m * 60 + s
          if rest = [] ∧ h ≤ 25 ∧ m ≤ 59 ∧ s ≤ 59 then
            some (if sign = '-' then -(n : Int) else n)
          else none
      else none
  | [] => none

/-- The seconds since the start of 1970 that a text denotes. -/
def read? (text : String) : Option Int :=
  (readDate? text.toList).bind fun ((y, mo, d), cs) =>
    match cs with
    | t :: cs =>
        if t = 'T' ∨ t = 't' ∨ t = ' ' then
          (readClock? cs).bind fun ((h, mi, s), cs) =>
            (skipFraction? cs).bind fun cs =>
              (readOffset? cs).bind fun offset =>
                let m : Moment := ⟨y, mo, d, h, mi, min s 59⟩
                if m.valid ∧ s ≤ 60 then some (m.toSeconds - offset) else none
        else none
    | [] => none

end ClusterConsole.Time
