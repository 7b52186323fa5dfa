/-!
Blank characters, and the two ways text is cut at them: `trim` removes them from both ends of a
text, `words` takes the maximal runs of other characters. Blank are the separators of every
script, the line and paragraph separators, and the control characters from tab to carriage
return and from file separator to unit separator. The zero-width space and the byte order mark
are not blank.
-/

namespace HackToolchain.Text

/-- The blank characters. -/
def isBlank (c : Char) : Bool :=
  let n := c.toNat
  (0x09 ≤ n && n ≤ 0x0D) || (0x1C ≤ n && n ≤ 0x20) || n == 0x85 || n == 0xA0 || n == 0x1680 ||
    (0x2000 ≤ n && n ≤ 0x200A) || n == 0x2028 || n == 0x2029 || n == 0x202F || n == 0x205F ||
    n == 0x3000

/-- Drops the characters that satisfy `p` from both ends. -/
def trimBoth (p : Char → Bool) (cs : List Char) : List Char :=
  ((cs.dropWhile p).reverse.dropWhile p).reverse

/-- A text without the blanks at its ends. -/
def trim (cs : List Char) : List Char :=
  trimBoth isBlank cs

/-- The words of a text that continues a word already begun, whose characters `begun` holds
last first. -/
def wordsFrom (begun : List Char) : List Char → List (List Char)
  | [] => if begun.isEmpty then [] else [begun.reverse]
  | c :: cs =>
    if isBlank c then
      if begun.isEmpty then wordsFrom [] cs else begun.reverse :: wordsFrom [] cs
    else wordsFrom (c :: begun) cs

/-- The maximal runs of characters that are not blank, in order. -/
def words (cs : List Char) : List (List Char) :=
  wordsFrom [] cs

end HackToolchain.Text
