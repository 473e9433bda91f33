import Unweave.Proofs.Merging
import Unweave.Task
import Unweave.Tree.Build

/-!
# Batches of packages

Packages come in batches, such as one for each project.  A batch may be put into a library of its
own, and the packages of that library be added to what there is; or its packages may be added one by
one.  Both ways end in the same library (`Library.batches_immaterial`), because merging packages of
one key is associative, and because a key stands where it first came.
-/

namespace Unweave

namespace Package

/-- Packages of one key can be merged from either end, with the same outcome. -/
theorem merge_assoc {a b c : Package} (hab : a.key = b.key) (hbc : b.key = c.key) :
    ∃ ab bc abc, a.merge b = .ok ab ∧ ab.merge c = .ok abc ∧
      b.merge c = .ok bc ∧ a.merge bc = .ok abc := by
  refine ⟨a.joined b, b.joined c, a.joined (b.joined c), merge_eq_joined hab, ?_,
    merge_eq_joined hbc, merge_eq_joined hab⟩
  rw [← joined_assoc a b c]
  exact merge_eq_joined (hab.trans hbc)

end Package

namespace Library

/-- Put a batch into a library of its own, and add the packages of that. -/
def addBatch (l : Library) (batch : List Package) : Except Error Library := do
  l.addAll (← empty.addAll batch).packages

theorem addBatch_eq (l : Library) (batch : List Package) : l.addBatch batch = l.addAll batch := by
  rw [addBatch, addAll_eq empty]
  exact (addAll_of_own (empty.addAll_eq batch) l).symm

/-- Batches added one after the other are their packages added one by one. -/
theorem foldlM_addBatch (batches : List (List Package)) (l : Library) :
    batches.foldlM addBatch l = l.addAll batches.flatten := by
  induction batches generalizing l with
  | nil => rfl
  | cons batch batches ih =>
    rw [List.foldlM_cons, addBatch_eq, List.flatten_cons, addAll_append]
    exact congrArg (l.addAll batch >>= ·) (funext ih)

end Library

/-- The packages that the extension methods of a project make, one for each. -/
def extensionBatch (policy : InterweaveConfig) (layout : Layout) (p : Project) : List Package :=
  ((Walker.ofProject p).answerAll (Catalogue.ofProject p).extensionMethods).1.map fun a =>
    .extensionMethods (layout.member a.1.declaration.toMember) (describe (policy.locals a.2))

theorem groupExtensions_eq (policy : InterweaveConfig) (layout : Layout) (p : Project) :
    groupExtensions policy layout p = Library.empty.addAll (extensionBatch policy layout p) := rfl

theorem groupAll_eq_foldlM (c : Config) (ps : List Project) :
    Task.groupAll c ps =
      (ps.map (extensionBatch c.interweave (Task.layoutOf c))).foldlM Library.addBatch .empty := by
  rw [Task.groupAll, List.foldlM_map]
  simp only [groupExtensions_eq]
  rfl

namespace Library

/-- Merging is associative, so batches do not matter: whether extension methods are packed project
by project and the libraries of the projects then put together, or all of them are added to one
library, the packages are the same, in the same order. -/
theorem batches_immaterial :
    (∀ a b c : Package, a.key = b.key → b.key = c.key →
      ∃ ab bc abc, a.merge b = .ok ab ∧ ab.merge c = .ok abc ∧
        b.merge c = .ok bc ∧ a.merge bc = .ok abc) ∧
    (∀ batches : List (List Package), ∃ l, batches.foldlM addBatch empty = .ok l ∧
      empty.addAll batches.flatten = .ok l) ∧
    ∀ (c : Config) (ps : List Project), ∃ l, Task.groupAll c ps = .ok l ∧
      empty.addAll (ps.flatMap (extensionBatch c.interweave (Task.layoutOf c))) = .ok l := by
  refine ⟨fun _ _ _ => Package.merge_assoc, fun batches => ?_, fun c ps => ?_⟩
  · rw [foldlM_addBatch]
    exact ⟨_, addAll_eq _ _, addAll_eq _ _⟩
  · rw [groupAll_eq_foldlM, foldlM_addBatch, List.flatMap_def]
    exact ⟨_, addAll_eq _ _, addAll_eq _ _⟩

/-- A project with extension methods, each of a type and a name. -/
def quay (methods : List (TypeSymbol × String)) : Project :=
  { id := ⟨1⟩, name := "Quay", assembly := "Quay"
    documents :=
      [{ id := ⟨1⟩, name := "Quay.cs"
         root :=
          { members := methods.mapIdx fun n m =>
              .leaf
                { id := ⟨n.toUInt32⟩
                  form := .method m.2 [] .void [⟨"x", .ofSymbol m.1, true⟩] none } } }] }

/-- The part of a class with a using directive and a header. -/
def berth (directive header : String) : Package :=
  .memberContainer ⟨.classKind, "Berth", 0, header, Text.sortedSet [directive]⟩ directive

theorem batches_immaterial_quays :
    (∃ ab bc abc, (berth "B" "class Berth").merge (berth "A" "class Berth : I") = .ok ab ∧
      ab.merge (berth "C" "class Berth : J") = .ok abc ∧
      (berth "A" "class Berth : I").merge (berth "C" "class Berth : J") = .ok bc ∧
      (berth "B" "class Berth").merge bc = .ok abc) ∧
    ∃ l, Task.groupAll {} [quay [(.named "L" "" "Crane", "Lift"), (.system "Int32", "Add")],
        quay [(.system "Int32", "Sum"), (.named "L" "" "Crane", "Drop")]] = .ok l ∧
      l.packages.map (fun p => (p.key, p.content)) =
        [("ExtensionMethods Crane", "void Lift(this Crane x);\n\nvoid Drop(this Crane x);"),
          ("ExtensionMethods", "void Add(this Int32 x);\n\nvoid Sum(this Int32 x);")] := by
  obtain ⟨hassoc, -, hprojects⟩ := batches_immaterial
  refine ⟨hassoc _ _ _ (by decide +kernel) (by decide +kernel), ?_⟩
  obtain ⟨l, hl, hdirect⟩ := hprojects {} [quay [(.named "L" "" "Crane", "Lift"),
    (.system "Int32", "Add")], quay [(.system "Int32", "Sum"), (.named "L" "" "Crane", "Drop")]]
  refine ⟨l, hl, ?_⟩
  have hcontents := congrArg (Except.map fun l : Library =>
    l.packages.map fun p => (p.key, p.content)) hdirect
  refine Except.ok.inj (hcontents.symm.trans ?_)
  decide +kernel

end Library
end Unweave
