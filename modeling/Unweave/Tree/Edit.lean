import Unweave.Tree.Basic

/-!
# Editing trees

Erasing nodes, thinning out trivia and changing top-level types.  Each edit rebuilds the tree in one
pass; an erased node takes everything below it along.
-/

namespace Unweave

def eraseUsings (gone : NodeId → Bool) (usings : List Using) : List Using :=
  usings.filter fun u => !gone u.id

def Using.keepTrivia (keep : Trivia → Bool) (u : Using) : Using :=
  { u with leading := u.leading.filter keep }

namespace Member

mutual

/-- Whether a declaration or using directive with this identifier is in the tree. -/
def contains (id : NodeId) : Member → Bool
  | block head members =>
    head.id == id || head.usings.any (·.id == id) || anyContains id members
  | type head members => head.id == id || anyContains id members
  | leaf l => l.id == id

def anyContains (id : NodeId) : List Member → Bool
  | [] => false
  | m :: ms => contains id m || anyContains id ms

end

mutual

/-- Erase below a member that itself stays. -/
def eraseInside (gone : NodeId → Bool) : Member → Member
  | block head members =>
    block { head with usings := eraseUsings gone head.usings } (eraseAll gone members)
  | type head members => type head (eraseAll gone members)
  | leaf l => leaf l

def eraseAll (gone : NodeId → Bool) : List Member → List Member
  | [] => []
  | m :: ms => if gone m.id then eraseAll gone ms else eraseInside gone m :: eraseAll gone ms

end

mutual

def keepTrivia (keep : Trivia → Bool) : Member → Member
  | block head members =>
    block
      { head with
        leading := head.leading.filter keep
        usings := head.usings.map (·.keepTrivia keep)
        closing := head.closing.filter keep }
      (keepTriviaAll keep members)
  | type head members =>
    type { head with leading := head.leading.filter keep, closing := head.closing.filter keep }
      (keepTriviaAll keep members)
  | leaf l => leaf { l with leading := l.leading.filter keep }

def keepTriviaAll (keep : Trivia → Bool) : List Member → List Member
  | [] => []
  | m :: ms => keepTrivia keep m :: keepTriviaAll keep ms

end

mutual

/-- The types that stand in no other type, in order. -/
def topTypes : Member → List TypeHead
  | block _ members => topTypesAll members
  | type head _ => [head]
  | leaf _ => []

def topTypesAll : List Member → List TypeHead
  | [] => []
  | m :: ms => topTypes m ++ topTypesAll ms

end

mutual

/-- Change each top-level type; types inside it are left alone. -/
def mapTopTypes (f : TypeHead → TypeHead) : Member → Member
  | block head members => block head (mapTopTypesAll f members)
  | type head members => type (f head) members
  | leaf l => leaf l

def mapTopTypesAll (f : TypeHead → TypeHead) : List Member → List Member
  | [] => []
  | m :: ms => mapTopTypes f m :: mapTopTypesAll f ms

end

mutual

/-- Like `mapTopTypes`, telling `f` how many top-level types came before. -/
def mapTopTypesFrom (f : Nat → TypeHead → TypeHead) (n : Nat) : Member → Nat × Member
  | block head members =>
    let (n, members) := mapTopTypesFromAll f n members
    (n, block head members)
  | type head members => (n + 1, type (f n head) members)
  | leaf l => (n, leaf l)

def mapTopTypesFromAll (f : Nat → TypeHead → TypeHead) (n : Nat) :
    List Member → Nat × List Member
  | [] => (n, [])
  | m :: ms =>
    let (n, m) := mapTopTypesFrom f n m
    let (n, ms) := mapTopTypesFromAll f n ms
    (n, m :: ms)

end

end Member

namespace Root

def contains (r : Root) (id : NodeId) : Bool :=
  r.usings.any (·.id == id) || Member.anyContains id r.members

/-- Erase every declaration and using directive whose identifier is `gone`. -/
def erase (r : Root) (gone : NodeId → Bool) : Root :=
  { r with usings := eraseUsings gone r.usings, members := Member.eraseAll gone r.members }

/-- Keep only the trivia that satisfies `keep`, everywhere in the tree. -/
def keepTrivia (r : Root) (keep : Trivia → Bool) : Root :=
  { usings := r.usings.map (·.keepTrivia keep)
    members := Member.keepTriviaAll keep r.members
    ending := r.ending.filter keep }

def topTypes (r : Root) : List TypeHead := Member.topTypesAll r.members

def mapTopTypes (r : Root) (f : TypeHead → TypeHead) : Root :=
  { r with members := Member.mapTopTypesAll f r.members }

def mapTopTypesIndexed (r : Root) (f : Nat → TypeHead → TypeHead) : Root :=
  { r with members := (Member.mapTopTypesFromAll f 0 r.members).2 }

end Root
end Unweave
