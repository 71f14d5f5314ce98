/-!
# Blank characters and trimming

`isBlank` is the Unicode property `White_Space`. Trimming takes blanks from both
ends of a text and `words` cuts a text at its runs of blanks. Everything is
defined on lists of characters; the functions on `String` read the list and
write it back.
-/

namespace ClusterConsole.Text

/-- The characters with the Unicode property `White_Space`. -/
def isBlank (c : Char) : Bool :=
  let n := c.toNat
  (9 ≤ n && n ≤ 13) || n == 0x20 || n == 0x85 || n == 0xA0 || n == 0x1680 ||
    (0x2000 ≤ n && n ≤ 0x200A) || n == 0x2028 || n == 0x2029 || n == 0x202F ||
    n == 0x205F || n == 0x3000

/-- Every character that core counts as white space is blank. -/
theorem isBlank_of_isWhitespace {c : Char} (h : c.isWhitespace = true) : isBlank c = true := by
  simp only [Char.isWhitespace, Bool.or_eq_true, decide_eq_true_eq] at h
  rcases h with ((rfl | rfl) | rfl) | rfl <;> decide

/-- The list without its leading blanks. -/
def trimStartList (cs : List Char) : List Char :=
  cs.dropWhile isBlank

/-- The list without its trailing blanks. -/
def trimEndList (cs : List Char) : List Char :=
  (cs.reverse.dropWhile isBlank).reverse

/-- The list without the blanks at both ends. -/
def trimList (cs : List Char) : List Char :=
  trimEndList (trimStartList cs)

/-- The text without the blanks at both ends. -/
def trim (s : String) : String :=
  String.ofList (trimList s.toList)

/-- Whether the text has no character other than blanks. -/
def allBlank (s : String) : Bool :=
  s.toList.all isBlank

/-- The maximal blank-free runs of the list; `run` is the run that is open at
this place, last character first. -/
def wordsFrom (run : List Char) : List Char → List (List Char)
  | [] => if run.isEmpty then [] else [run.reverse]
  | c :: cs =>
      if isBlank c then
        if run.isEmpty then wordsFrom [] cs else run.reverse :: wordsFrom [] cs
      else wordsFrom (c :: run) cs

/-- The maximal blank-free runs of the text. -/
def words (s : String) : List String :=
  (wordsFrom [] s.toList).map String.ofList

end ClusterConsole.Text
