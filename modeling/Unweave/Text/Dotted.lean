/-!
# Dotted names

A name in a namespace is written after it and a dot; at the top there is no dot.
-/

namespace Unweave
namespace Text

def qualify (space name : String) : String :=
  if space.isEmpty then name else space ++ "." ++ name

end Text
end Unweave
