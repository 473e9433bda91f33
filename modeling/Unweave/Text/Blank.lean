/-!
# Blank characters

Declarations, trivia and package contents are trimmed of every character that Unicode calls white
space, not only of the ASCII ones.  Zero-width characters and the byte order mark are not blank.
-/

namespace Unweave
namespace Text

/-- The white space of Unicode: twenty-five code points in nine runs. -/
def isBlank (c : Char) : Bool :=
  let n := c.toNat
  (0x09 ≤ n && n ≤ 0x0D) || n == 0x20 || n == 0x85 || n == 0xA0 || n == 0x1680 ||
    (0x2000 ≤ n && n ≤ 0x200A) || n == 0x2028 || n == 0x2029 || n == 0x202F ||
    n == 0x205F || n == 0x3000

/-- Drop the blanks at the end. -/
def dropEnd (cs : List Char) : List Char := (cs.reverse.dropWhile isBlank).reverse

def trimEnd (s : String) : String := String.ofList (dropEnd s.toList)

def trim (s : String) : String := String.ofList (dropEnd (s.toList.dropWhile isBlank))

end Text
end Unweave
