import ClusterConsole.Number.Decimal
import ClusterConsole.Text.Blank
import ClusterConsole.Text.Width

/-!
# Characters in quotes

A character written between single quotes. The quote, the backslash and the
characters of line and column have escapes of their own; a character that shows
nothing by itself is written by its number.
-/

namespace ClusterConsole.Text

/-- The letter of an escape, for the characters that have one. -/
def escapeLetter? : Char → Option Char
  | '\x00' => some '0'
  | '\t' => some 't'
  | '\n' => some 'n'
  | '\r' => some 'r'
  | '\'' => some '\''
  | '\\' => some '\\'
  | _ => none

/-- Characters that only arrange others, and those whose meaning is private. -/
def formatRanges : List (Nat × Nat) :=
  [(0xAD, 0xAD), (0x600, 0x605), (0x61C, 0x61C), (0x180E, 0x180E), (0x202A, 0x202E),
    (0x2065, 0x206F), (0xE000, 0xF8FF), (0xFFF9, 0xFFFB), (0xE0000, 0xE00FF),
    (0xF0000, 0x10FFFF)]

/-- Whether a character shows nothing by itself. -/
def isUnseen (c : Char) : Bool :=
  isControl c || (c != ' ' && isBlank c) || inRanges joiningRanges c.toNat ||
    inRanges hiddenRanges c.toNat || inRanges formatRanges c.toNat

/-- The character in single quotes. -/
def quoteChar (c : Char) : String :=
  let body :=
    match escapeLetter? c with
    | some letter => ['\\', letter]
    | none =>
        if isUnseen c then "\\u\x7b".toList ++ (Nat.toDigits 16 c.toNat) ++ ['\x7d'] else [c]
  String.ofList ('\'' :: body ++ ['\''])

end ClusterConsole.Text
