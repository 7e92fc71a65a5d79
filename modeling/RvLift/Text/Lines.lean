/-!
# Lines

A line ends with a line feed, before which one carriage return does not count. Text behind the last
line feed is a line too, unless it is empty.
-/

namespace RvLift.Text

/-- A reversed line without the carriage return at its end. -/
def withoutReturn : List Char → List Char
  | '\r' :: line => line
  | line => line

/-- The lines of a text that follows the reversed beginning of a line. -/
def linesBehind (start : List Char) : List Char → List String
  | [] => if start.isEmpty then [] else [String.ofList start.reverse]
  | '\n' :: rest => String.ofList (withoutReturn start).reverse :: linesBehind [] rest
  | character :: rest => linesBehind (character :: start) rest

/-- The lines of a text. -/
def lines (text : String) : List String := linesBehind [] text.toList

/-- The first line of a text, empty if it has none. -/
def firstLine (text : String) : String := (lines text).headD ""

end RvLift.Text
