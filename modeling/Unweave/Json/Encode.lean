import Unweave.Json.Basic

/-!
# Encoding records

Fields are written in a fixed order; some are left out when they hold nothing.
-/

namespace Unweave
namespace Json

def field (name : String) (j : Json) : List (String × Json) := [(name, j)]

/-- A list that is left out when it is empty. -/
def listUnlessEmpty (name : String) (items : List Json) : List (String × Json) :=
  if items.isEmpty then [] else [(name, arr items)]

/-- A value that is left out when there is none. -/
def fieldIfSome (name : String) : Option Json → List (String × Json)
  | none => []
  | some j => [(name, j)]

def orNull : Option Json → Json
  | none => null
  | some j => j

def ofWord (w : UInt32) : Json := ofNat w.toNat

end Json
end Unweave
