import Unweave.Error
import Unweave.Json.Decode
import Unweave.Json.Encode
import Unweave.Policy
import Unweave.Text.Blank
import Unweave.Text.Sorted
import Unweave.Tree.Basic

/-!
# Packages

A package is extracted text under a key.  The key says what kind of package it is, which type it
belongs to, and on which types the text depends; packages of one key are merged.
-/

namespace Unweave

inductive PackageKind where
  /-- Extension methods by the types from outside the runtime that they use. -/
  | extensionMethods
  | interwovenExtensionMethods
  | interwovenTypeMembers
  | memberContainer
deriving DecidableEq, Repr

namespace PackageKind

/-- The first word of a key. -/
def keyName : PackageKind → String
  | .extensionMethods => "ExtensionMethods"
  | .interwovenExtensionMethods => "InterwovenExtensionMethods"
  | .interwovenTypeMembers => "InterwovenTypeMembers"
  | .memberContainer => "MemberContainer"

def render : PackageKind → String
  | .extensionMethods => "extension_methods"
  | .interwovenExtensionMethods => "interwoven_extension_methods"
  | .interwovenTypeMembers => "interwoven_type_members"
  | .memberContainer => "member_container"

def names : List (String × PackageKind) :=
  [.extensionMethods, .interwovenExtensionMethods, .interwovenTypeMembers, .memberContainer].map
    fun k => (k.render, k)

end PackageKind

/-! ## Labels -/

def Text.firstWord (s : String) : List Char := s.toList.takeWhile (· != ' ')

namespace PackageKind

/-- The key says that the package is of this kind. -/
def Labels (k : PackageKind) (key : String) : Prop := Text.firstWord key = k.keyName.toList
deriving Decidable

theorem takeWhile_keyName (k : PackageKind) (rest : List Char) :
    (k.keyName.toList ++ rest).takeWhile (· != ' ') =
      k.keyName.toList ++ rest.takeWhile (· != ' ') := by
  have hall : k.keyName.toList.all (· != ' ') = true := by cases k <;> decide
  exact List.takeWhile_append_of_pos (List.all_eq_true.mp hall)

theorem labels_keyName (k : PackageKind) : k.Labels k.keyName := by
  have h := takeWhile_keyName k []
  rw [List.append_nil, List.takeWhile_nil, List.append_nil] at h
  exact h

theorem labels_append (k : PackageKind) (rest : String) : k.Labels (k.keyName ++ " " ++ rest) := by
  have hspace : (" ".toList ++ rest.toList).takeWhile (· != ' ') = [] :=
    List.takeWhile_cons_of_neg (by decide)
  rw [Labels, Text.firstWord, String.append_assoc, String.toList_append, String.toList_append,
    takeWhile_keyName, hspace, List.append_nil]

theorem keyName_injective {k k' : PackageKind} (h : k.keyName.toList = k'.keyName.toList) :
    k = k' := by
  revert h
  cases k <;> cases k' <;> decide

/-- A key names one kind. -/
theorem Labels.unique {k k' : PackageKind} {key : String} (h : k.Labels key)
    (h' : k'.Labels key) : k = k' :=
  keyName_injective (h.symm.trans h')

end PackageKind

/-! ## Contents -/

/-- The distinct open names of types, in order. -/
def describe (ts : List TypeRef) : TextSet := Text.sortedSet (ts.map (·.openName))

/-- What a member container remembers of its type. -/
structure ContainerDetails where
  kind : TypeKind
  /-- The name with its namespace. -/
  name : String
  arity : Nat
  /-- The header, with the comments above it. -/
  declaration : String
  /-- The using directives in scope. -/
  usings : TextSet
deriving DecidableEq

structure Package where
  key : String
  kind : PackageKind
  content : String
  /-- The types the content depends on. -/
  dependencies : TextSet
  owner : Option String := none
  container : Option ContainerDetails := none
  labelled : kind.Labels key
deriving DecidableEq

def TypeKind.title : TypeKind → String
  | .classKind => "Class"
  | .structKind => "Struct"

namespace Package

def extensionMethods (content : String) (dependencies : TextSet) : Package :=
  let kind := PackageKind.extensionMethods
  { key :=
      if dependencies.isEmpty then kind.keyName
      else kind.keyName ++ " " ++ ",".intercalate dependencies
    kind, content := Text.trim content, dependencies
    labelled := by
      split
      · exact kind.labels_keyName
      · exact kind.labels_append _ }

def interwovenExtensionMethods (content : String) (dependencies : TextSet) : Package :=
  let kind := PackageKind.interwovenExtensionMethods
  { key := kind.keyName ++ " " ++ ",".intercalate dependencies
    kind, content := Text.trim content, dependencies
    labelled := kind.labels_append _ }

def interwovenTypeMembers (owner content : String) (dependencies : TextSet) : Package :=
  let kind := PackageKind.interwovenTypeMembers
  { key := kind.keyName ++ " " ++ owner ++ " " ++ ",".intercalate dependencies
    kind, content := Text.trim content, dependencies, owner := some owner
    labelled := by
      rw [String.append_assoc, String.append_assoc]
      exact kind.labels_append _ }

def memberContainer (details : ContainerDetails) (content : String) : Package :=
  let kind := PackageKind.memberContainer
  { key :=
      kind.keyName ++ " " ++ details.kind.title ++ " " ++ details.name ++ "`" ++
        toString details.arity
    kind, content := Text.trim content, dependencies := .empty, owner := some details.name
    container := some details
    labelled := by
      simp only [String.append_assoc]
      rw [← String.append_assoc]
      exact kind.labels_append _ }

/-- Two contents, a blank line apart if both say something. -/
def joinContents (a b : String) : String :=
  if b.isEmpty then a else if a.isEmpty then b else a ++ "\n\n" ++ b

/-- Usings of both, and the declaration that is longer in bytes; of two as long, the first. -/
def mergeDetails (a b : ContainerDetails) : ContainerDetails :=
  { a with
    usings := a.usings.union b.usings
    declaration :=
      if b.declaration.utf8ByteSize > a.declaration.utf8ByteSize then b.declaration
      else a.declaration }

def mergeContainers : Option ContainerDetails → Option ContainerDetails → Option ContainerDetails
  | some a, some b => some (mergeDetails a b)
  | some a, none => some a
  | none, b => b

/-- One package of two with the same kind and key. -/
def merge (a b : Package) : Except Error Package :=
  if a.kind ≠ b.kind then
    .error (.invariant
      ("cannot merge package kinds " ++ a.kind.keyName ++ " and " ++ b.kind.keyName))
  else if a.key ≠ b.key then
    .error (.invariant ("cannot merge package keys '" ++ a.key ++ "' and '" ++ b.key ++ "'"))
  else
    .ok
      { a with
        content := joinContents a.content b.content
        container := mergeContainers a.container b.container }

theorem key_of_merge {a b c : Package} (h : a.merge b = .ok c) : c.key = a.key := by
  rw [merge] at h
  split at h
  · cases h
  · split at h
    · cases h
    · cases h
      rfl

end Package

/-- What an answer tells of a package. -/
structure PackageInfo where
  key : String
  kind : String
  owner : Option String
  dependencies : List String
  usings : List String
  declaration : Option String
  content : String
deriving DecidableEq

def Package.info (p : Package) : PackageInfo :=
  { key := p.key, kind := p.kind.render, owner := p.owner, dependencies := p.dependencies,
    usings := (p.container.map (·.usings.toList)).getD [],
    declaration := p.container.map (·.declaration),
    content := p.content }

namespace PackageInfo

def toJson (p : PackageInfo) : Json :=
  .obj (Json.field "key" (.str p.key) ++ Json.field "kind" (.str p.kind) ++
    Json.fieldIfSome "owner" (p.owner.map .str) ++
    Json.field "dependencies" (.strings p.dependencies) ++
    Json.listUnlessEmpty "usings" (p.usings.map .str) ++
    Json.fieldIfSome "declaration" (p.declaration.map .str) ++
    Json.field "content" (.str p.content))

def decode : Json.Decoder PackageInfo := fun scope j => do
  let r ← Json.record
    ["key", "kind", "owner", "dependencies", "usings", "declaration", "content"] scope j
  let key ← r.required "key" Json.text
  let kind ← r.required "kind" Json.text
  let owner ← r.nullableField "owner" Json.text
  let dependencies ← r.required "dependencies" (Json.list Json.text)
  let usings ← r.default "usings" [] (Json.list Json.text)
  let declaration ← r.nullableField "declaration" Json.text
  let content ← r.required "content" Json.text
  return { key, kind, owner, dependencies, usings, declaration, content }

end PackageInfo
end Unweave
