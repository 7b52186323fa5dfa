/-!
Lines of a text. A line ends at a line feed, at a carriage return, or at both in this order; no
other character ends one, and the end of the text ends a line only if something precedes it
there. Written, every line ends with a line feed.
-/

namespace HackToolchain.Text

/-- The lines of a text that continues the line `begun`, held last first, after the lines
`done`, latest first. -/
def linesFrom (begun : List Char) (done : List String) : List Char → List String
  | [] => (if begun.isEmpty then done else String.ofList begun.reverse :: done).reverse
  | '\r' :: '\n' :: rest => linesFrom [] (String.ofList begun.reverse :: done) rest
  | c :: rest =>
    if c == '\n' || c == '\r' then linesFrom [] (String.ofList begun.reverse :: done) rest
    else linesFrom (c :: begun) done rest

/-- The lines of a text, without what ends them. -/
def lines (cs : List Char) : List String :=
  linesFrom [] [] cs

/-- The text that has the given lines. -/
def unlines (ls : List String) : String :=
  String.join (ls.map (· ++ "\n"))

end HackToolchain.Text
