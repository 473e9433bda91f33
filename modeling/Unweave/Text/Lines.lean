/-!
# Lines

A text is cut at each line feed; a carriage return before the feed belongs to the line end, and
nothing follows the last line end.  Layout indents texts line by line and leaves empty lines empty.
-/

namespace Unweave
namespace Text

/-- Forget one carriage return at the end of a line held in reverse. -/
def withoutReturn : List Char → List Char
  | '\r' :: line => line
  | line => line

/-- The lines of a text, the first one continuing `line`, which is held in reverse. -/
def linesFrom (line : List Char) : List Char → List (List Char)
  | [] => if line.isEmpty then [] else [line.reverse]
  | c :: cs =>
    if c = '\n' then (withoutReturn line).reverse :: linesFrom [] cs else linesFrom (c :: line) cs

def lines (s : String) : List String := (linesFrom [] s.toList).map String.ofList

/-- Put `margin` in front of each line that is not empty. -/
def indent (margin s : String) : String :=
  "\n".intercalate ((lines s).map fun line => if line.isEmpty then line else margin ++ line)

end Text
end Unweave
