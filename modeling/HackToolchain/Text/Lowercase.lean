import HackToolchain.Text.CaseTable
/-!
Lower-casing of text by the full rules of the Unicode standard. Every character is mapped by
itself, with one exception: a capital sigma becomes the final small sigma when it ends a word.
-/

namespace HackToolchain.Text

/-- The small letters of one character, taken by itself. Only the dotted capital I has two. -/
def lowerChar (c : Char) : List Char :=
  if c.toNat < 0x80 then [c.toLower]
  else if c.toNat == 0x130 then ['i', Char.ofNat 0x307]
  else
    match capitals.find? (·.contains c.toNat) with
    | some r => [Char.ofNat (r.lower c.toNat)]
    | none => [c]

/-- Whether a capital sigma between `before`, read backwards, and `after` ends a word: on the way
back the first character that counts has case, and on the way forward none or a caseless one
comes first. -/
def endsWord (before after : List Char) : Bool :=
  ((before.dropWhile isCaseIgnorable).head?.any isCased) &&
    !((after.dropWhile isCaseIgnorable).head?.any isCased)

/-- Lower-cases a text whose beginning, read backwards, is `before`. -/
def lowercaseFrom (before : List Char) : List Char → List Char
  | [] => []
  | c :: after =>
    (if c.toNat == 0x3A3 then [Char.ofNat (if endsWord before after then 0x3C2 else 0x3C3)]
      else lowerChar c) ++ lowercaseFrom (c :: before) after

/-- A text in small letters. -/
def lowercase (cs : List Char) : List Char :=
  lowercaseFrom [] cs

/-- A camel-case name in kebab case: a hyphen before every capital letter of the Latin alphabet
except the first character, and small letters throughout. -/
def kebabCase : List Char → List Char
  | [] => []
  | c :: cs => lowercase (c :: cs.flatMap fun d => if d.isUpper then ['-', d] else [d])

end HackToolchain.Text
