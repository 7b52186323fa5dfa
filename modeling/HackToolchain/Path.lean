/-!
Paths in their normal form: an anchor and the names below it. Empty components and `.` are
dropped when a path is read, `..` is kept, and exactly two leading slashes are an anchor of their
own. Names have a stem and a suffix: the suffix begins at the last dot, unless that dot is the
first or the last character.
-/

namespace HackToolchain

/-- Where a path starts. -/
inductive Anchor where
  | relative
  | root
  | doubleRoot
deriving DecidableEq, Repr

namespace Anchor

def text : Anchor → String
  | relative => ""
  | root => "/"
  | doubleRoot => "//"

/-- The anchor of a text: any number of leading slashes but two makes the plain root. -/
def ofChars : List Char → Anchor
  | '/' :: '/' :: '/' :: _ => root
  | '/' :: '/' :: _ => doubleRoot
  | '/' :: _ => root
  | _ => relative

end Anchor

structure Path where
  anchor : Anchor
  names : List String
deriving DecidableEq, Repr

namespace Path

/-- The pieces of a text between slashes. -/
def components (begun : List Char) : List Char → List String
  | [] => [String.ofList begun.reverse]
  | c :: cs =>
    if c == '/' then String.ofList begun.reverse :: components [] cs
    else components (c :: begun) cs

def ofString (s : String) : Path where
  anchor := Anchor.ofChars s.toList
  names := (components [] s.toList).filter fun name => name != "" && name != "."

/-- The text of a path. The path without names and anchor is written `.`. -/
def text (p : Path) : String :=
  if p.anchor == .relative && p.names.isEmpty then "."
  else p.anchor.text ++ "/".intercalate p.names

/-- The last name of a path, empty if there is none. -/
def name (p : Path) : String :=
  p.names.getLast?.getD ""

/-- A name cut into stem and suffix. -/
def splitName (name : List Char) : List Char × List Char :=
  match name.reverse.takeWhile (· != '.'), name.reverse.dropWhile (· != '.') with
  | e :: ext, '.' :: s :: stem => ((s :: stem).reverse, '.' :: (e :: ext).reverse)
  | _, _ => (name, [])

def stem (p : Path) : String :=
  String.ofList (splitName p.name.toList).1

def suffix (p : Path) : String :=
  String.ofList (splitName p.name.toList).2

/-- The path with another suffix, or with one added where there was none. A path without a name
cannot have one. -/
def withSuffix? (p : Path) (suffix : String) : Option Path :=
  if p.name == "" then none
  else some { p with names := p.names.dropLast ++ [p.stem ++ suffix] }

/-- Stem and suffix make up the name. -/
theorem splitName_append (name : List Char) : (splitName name).1 ++ (splitName name).2 = name := by
  unfold splitName
  split
  · next e ext c stem back front =>
    have : name.reverse = name.reverse.takeWhile (· != '.') ++ name.reverse.dropWhile (· != '.') :=
      List.takeWhile_append_dropWhile.symm
    rw [back, front] at this
    simpa using (congrArg List.reverse this).symm
  · simp

end Path

end HackToolchain
