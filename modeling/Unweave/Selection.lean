import Unweave.Error
import Unweave.Policy
import Unweave.Walk

/-!
# Selection

Which declarations an extraction pass moves: extension methods that depend on an interweave, other
members that depend on one besides the type they are in, and every top-level type.
-/

namespace Unweave

/-- A declaration with the dependencies it was selected by. -/
structure Selected where
  entry : Entry
  dependencies : TypeSet

namespace Selected

def id (s : Selected) : NodeId := s.entry.id

end Selected

namespace InterweaveConfig

/-- Whether a member depends on an interweave other than the type around it. -/
def isInterwoven (c : InterweaveConfig) (e : Entry) (deps : TypeSet) : Bool :=
  deps.refs.any fun t => c.isInterweave t && e.containerOpenName != some t.openName

/-- Extension methods with at least one interweave. -/
def selectExtensions (c : InterweaveConfig) (w : Walker) : List Selected × Walker :=
  let (answers, w) := w.answerAll w.catalogue.extensionMethods
  ((answers.filter fun (_, deps) => c.anyInterweave deps).map fun (e, deps) => ⟨e, deps⟩, w)

/-- Members other than extension methods that are interwoven.  Each must be inside a type. -/
def selectMembers (c : InterweaveConfig) (w : Walker) : Except Error (List Selected) × Walker :=
  let (answers, w) := w.answerAll w.catalogue.typeMembers
  let interwoven := answers.filter fun (e, deps) => c.isInterwoven e deps
  let orphans := interwoven.filter fun (e, _) => e.container.isNone
  let result :=
    if orphans.isEmpty then .ok (interwoven.map fun (e, deps) => ⟨e, deps⟩)
    else
      .error (.invariant
        ("Every type member should have a containing type. These did not: " ++
          ", ".intercalate (orphans.map fun (e, _) => e.qualifiedName)))
  (result, w)

/-- Every top-level type. -/
def selectContainers (_ : InterweaveConfig) (w : Walker) : List Selected :=
  w.catalogue.topTypes.map fun e => ⟨e, .empty⟩

end InterweaveConfig
end Unweave
