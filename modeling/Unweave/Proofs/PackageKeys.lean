import Unweave.Package

/-!
# Keys tell kinds

A key begins with the name of a kind, so packages of the same key are of the same kind and can be
merged.
-/

namespace Unweave
namespace Package

/-- The ways to make a package. -/
inductive Constructed : Package → Prop where
  | extensionMethods (content : String) (dependencies : TextSet) :
    Constructed (.extensionMethods content dependencies)
  | interwovenExtensionMethods (content : String) (dependencies : TextSet) :
    Constructed (.interwovenExtensionMethods content dependencies)
  | interwovenTypeMembers (owner content : String) (dependencies : TextSet) :
    Constructed (.interwovenTypeMembers owner content dependencies)
  | memberContainer (details : ContainerDetails) (content : String) :
    Constructed (.memberContainer details content)

theorem kind_eq_of_key_eq {a b : Package} (h : a.key = b.key) : a.kind = b.kind := by
  have hb := b.labelled
  rw [← h] at hb
  exact a.labelled.unique hb

/-- The package under one key that two packages become. -/
def joined (a b : Package) : Package :=
  { a with
    content := joinContents a.content b.content
    container := mergeContainers a.container b.container }

theorem merge_eq_joined {a b : Package} (h : a.key = b.key) : a.merge b = .ok (a.joined b) := by
  rw [merge, if_neg (not_not_intro (kind_eq_of_key_eq h)), if_neg (not_not_intro h)]
  rfl

end Package
end Unweave
