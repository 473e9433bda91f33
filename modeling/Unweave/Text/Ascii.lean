/-!
# Case folding of ASCII letters

Assembly names and file extensions are compared without regard to the case of ASCII letters; all
other characters stand for themselves.
-/

namespace Unweave
namespace Text

def lowerChar (c : Char) : Char :=
  if 'A' ≤ c ∧ c ≤ 'Z' then Char.ofNat (c.toNat + 32) else c

def lower (s : String) : String := String.ofList (s.toList.map lowerChar)

/-- Equal up to the case of ASCII letters. -/
def sameFolded (a b : String) : Bool := lower a == lower b

end Text
end Unweave
