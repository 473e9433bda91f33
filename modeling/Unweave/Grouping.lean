import Unweave.Layout
import Unweave.Library
import Unweave.Walk

/-!
# Grouping extension methods

All extension methods of a project, packed by the types from outside the runtime that they depend
on.  The project stays as it is.
-/

namespace Unweave

def groupExtensions (policy : InterweaveConfig) (layout : Layout) (p : Project) :
    Except Error Library :=
  let w := Walker.ofProject p
  let (answers, _) := w.answerAll w.catalogue.extensionMethods
  Library.empty.addAll (answers.map fun (e, deps) =>
    .extensionMethods (layout.member e.declaration.toMember) (describe (policy.locals deps)))

end Unweave
