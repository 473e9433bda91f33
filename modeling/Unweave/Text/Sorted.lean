import Unweave.SortedSet

/-!
# Sorted sets of texts

Sets that answers show are in the order of their characters, which is also that of their bytes.
-/

namespace Unweave

abbrev TextSet : Type := Sorted String

/-- The distinct texts of a list in order. -/
def Text.sortedSet (ss : List String) : TextSet := .ofList ss

end Unweave
