/-!
# Glyphs and their widths

How many cells of a terminal a character takes: none for marks that join the
character before, two for the wide characters of East Asia and for pictures, one
for all others. The ranges cover the blocks that are in use; they are coarser
than the tables of the standard.

A glyph is what a terminal shows as one: a character with the marks that join it,
pictures joined into one, or the two letters of a flag. Control characters are no
glyphs.
-/

namespace ClusterConsole.Text

/-- Characters that join the one before. -/
def joiningRanges : List (Nat × Nat) :=
  [(0x0300, 0x036F), (0x0483, 0x0489), (0x0591, 0x05BD), (0x0610, 0x061A), (0x064B, 0x065F),
    (0x0E34, 0x0E3A), (0x1160, 0x11FF), (0x1AB0, 0x1AFF), (0x1DC0, 0x1DFF), (0x200C, 0x200D),
    (0x20D0, 0x20FF), (0xFE00, 0xFE0F), (0xFE20, 0xFE2F), (0xE0100, 0xE01EF)]

/-- Characters without a width that join nothing. -/
def hiddenRanges : List (Nat × Nat) :=
  [(0x200B, 0x200B), (0x200E, 0x200F), (0x2060, 0x2064), (0xFEFF, 0xFEFF)]

/-- Wide characters. -/
def wideRanges : List (Nat × Nat) :=
  [(0x1100, 0x115F), (0x231A, 0x231B), (0x2329, 0x232A), (0x23E9, 0x23EC), (0x23F0, 0x23F0),
    (0x23F3, 0x23F3), (0x25FD, 0x25FE), (0x2614, 0x2615), (0x2648, 0x2653), (0x267F, 0x267F),
    (0x2693, 0x2693), (0x26A1, 0x26A1), (0x26AA, 0x26AB), (0x26BD, 0x26BE), (0x26C4, 0x26C5),
    (0x26CE, 0x26CE), (0x26D4, 0x26D4), (0x26EA, 0x26EA), (0x26F2, 0x26F3), (0x26F5, 0x26F5),
    (0x26FA, 0x26FA), (0x26FD, 0x26FD), (0x2705, 0x2705), (0x270A, 0x270B), (0x2728, 0x2728),
    (0x274C, 0x274C), (0x274E, 0x274E), (0x2753, 0x2755), (0x2757, 0x2757), (0x2795, 0x2797),
    (0x27B0, 0x27B0), (0x27BF, 0x27BF), (0x2B1B, 0x2B1C), (0x2B50, 0x2B50), (0x2B55, 0x2B55),
    (0x2E80, 0x303E), (0x3041, 0x33FF), (0x3400, 0x4DBF), (0x4E00, 0x9FFF), (0xA000, 0xA4CF),
    (0xA960, 0xA97F), (0xAC00, 0xD7A3), (0xF900, 0xFAFF), (0xFE10, 0xFE19), (0xFE30, 0xFE6F),
    (0xFF01, 0xFF60), (0xFFE0, 0xFFE6), (0x16FE0, 0x18DFF), (0x1B000, 0x1B2FF), (0x1F004, 0x1F004),
    (0x1F0CF, 0x1F0CF), (0x1F18E, 0x1F18E), (0x1F191, 0x1F19A), (0x1F200, 0x1F320),
    (0x1F32D, 0x1F335), (0x1F337, 0x1F37C), (0x1F37E, 0x1F393), (0x1F3A0, 0x1F3CA),
    (0x1F3CF, 0x1F3D3), (0x1F3E0, 0x1F3F0), (0x1F3F4, 0x1F3F4), (0x1F3F8, 0x1F43E),
    (0x1F440, 0x1F440), (0x1F442, 0x1F4FC), (0x1F4FF, 0x1F53D), (0x1F54B, 0x1F54E),
    (0x1F550, 0x1F567), (0x1F57A, 0x1F57A), (0x1F595, 0x1F596), (0x1F5A4, 0x1F5A4),
    (0x1F5FB, 0x1F64F), (0x1F680, 0x1F6C5), (0x1F6CC, 0x1F6CC), (0x1F6D0, 0x1F6D2),
    (0x1F6D5, 0x1F6D7), (0x1F6DC, 0x1F6DF), (0x1F6EB, 0x1F6EC), (0x1F6F4, 0x1F6FC),
    (0x1F7E0, 0x1F7EB), (0x1F90C, 0x1F93A), (0x1F93C, 0x1F945), (0x1F947, 0x1F9FF),
    (0x1FA70, 0x1FAFF), (0x20000, 0x3FFFD)]

/-- Whether a code point lies in one of the ranges. -/
def inRanges (ranges : List (Nat × Nat)) (n : Nat) : Bool :=
  ranges.any fun r => r.1 ≤ n && n ≤ r.2

def isControl (c : Char) : Bool :=
  c.toNat < 0x20 || (0x7F ≤ c.toNat && c.toNat < 0xA0)

/-- The cells that a character takes; a control character takes none. -/
def charWidth (c : Char) : Nat :=
  let n := c.toNat
  if isControl c then 0
  else if n < 0x300 then 1
  else if inRanges joiningRanges n ∨ inRanges hiddenRanges n then 0
  else if inRanges wideRanges n then 2
  else 1

/-! ## Glyphs -/

/-- Whether the character is one of those that make up flags. -/
def isFlagLetter (c : Char) : Bool := 0x1F1E6 ≤ c.toNat && c.toNat ≤ 0x1F1FF

/-- Whether the character changes the colour of the picture before it. -/
def isTone (c : Char) : Bool := 0x1F3FB ≤ c.toNat && c.toNat ≤ 0x1F3FF

/-- The character that joins two pictures. -/
def pictureJoiner : Char := '\u200D'

/-- The mark that makes a sign a picture. -/
def pictureMark : Char := '\uFE0F'

/-- Whether a character belongs to the glyph before it, whose last character comes
first. -/
def joins (glyph : List Char) (c : Char) : Bool :=
  match glyph with
  | [] => false
  | last :: before =>
      inRanges joiningRanges c.toNat || isTone c ||
        (last == pictureJoiner && before != [] && 0x2190 ≤ c.toNat) ||
        (isFlagLetter c && isFlagLetter last && before == [])

/-- The glyphs of a list of characters; `run` is the open one, last character
first. -/
def glyphsFrom (run : List Char) : List Char → List (List Char)
  | [] => if run.isEmpty then [] else [run.reverse]
  | c :: cs =>
      if !isControl c && joins run c then glyphsFrom (c :: run) cs
      else
        (if run.isEmpty then [] else [run.reverse]) ++
          glyphsFrom (if isControl c then [] else [c]) cs

def glyphs (cs : List Char) : List (List Char) := glyphsFrom [] cs

/-- The cells that a glyph takes. -/
def glyphWidth (glyph : List Char) : Nat :=
  if glyph.contains pictureMark ∧ glyph.head?.any (fun c => 0xA9 ≤ c.toNat) then 2
  else min 2 (glyph.foldr (fun c n => charWidth c + n) 0)

end ClusterConsole.Text
