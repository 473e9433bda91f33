import Unweave.Solution.Basic

/-!
# Numbering

Nodes without an identifier get the numbers that follow the last one given out, in the order in
which a reader meets them: usings before members, a block or type before what is inside it.
-/

namespace Unweave
namespace Numbering

/-- Name a node, if it has no name yet, by the next number. -/
def fresh (next : Nat) (id : NodeId) : Nat × NodeId :=
  if id.isAssigned then (next, id) else (next + 1, ⟨UInt32.ofNat next⟩)

def usings (next : Nat) : List Using → Nat × List Using
  | [] => (next, [])
  | u :: us =>
    let (next, id) := fresh next u.id
    let (next, us) := usings next us
    (next, { u with id } :: us)

mutual

def member (next : Nat) : Member → Nat × Member
  | .block head ms =>
    let (next, id) := fresh next head.id
    let (next, us) := usings next head.usings
    let (next, ms) := members next ms
    (next, .block { head with id, usings := us } ms)
  | .type head ms =>
    let (next, id) := fresh next head.id
    let (next, ms) := members next ms
    (next, .type { head with id } ms)
  | .leaf l =>
    let (next, id) := fresh next l.id
    (next, .leaf { l with id })

def members (next : Nat) : List Member → Nat × List Member
  | [] => (next, [])
  | m :: ms =>
    let (next, m) := member next m
    let (next, ms) := members next ms
    (next, m :: ms)

end

def root (next : Nat) (r : Root) : Nat × Root :=
  let (next, us) := usings next r.usings
  let (next, ms) := members next r.members
  (next, { r with usings := us, members := ms })

end Numbering
end Unweave
