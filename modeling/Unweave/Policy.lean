import Unweave.Text.Ascii
import Unweave.TypeRef

/-!
# Interweaves

A type is an interweave when it comes from outside the trusted runtime.  Arrays and type parameters
never are, since what they stand for is judged by itself; tuples are, if the policy says so.
Assemblies are compared without regard to case.
-/

namespace Unweave

/-- What counts as the trusted runtime, as the user writes it. -/
structure InterweaveConfig where
  trusted : List String := ["System.Runtime", "System.Collections", "System.Diagnostics.Debug"]
  /-- Assemblies whose types are interweaves even if they are trusted. -/
  alwaysForeign : List String := ["System.ValueTuple"]
  tuplesForeign : Bool := true
deriving DecidableEq

namespace InterweaveConfig

def trusts (c : InterweaveConfig) (assembly : String) : Bool :=
  c.trusted.any (Text.sameFolded assembly)

def isInterweave (c : InterweaveConfig) (t : TypeRef) : Bool :=
  if t.isArray || t.isParameter then false
  else if t.isTuple && c.tuplesForeign then true
  else c.alwaysForeign.any (Text.sameFolded t.assembly) || !c.trusts t.assembly

/-- Whether a type is from outside the trusted assemblies, the project's own types included. -/
def isLocal (c : InterweaveConfig) (t : TypeRef) : Bool :=
  !t.isArray && !t.isParameter && !c.trusts t.assembly

def interweaves (c : InterweaveConfig) (s : TypeSet) : List TypeRef := s.refs.filter c.isInterweave

def locals (c : InterweaveConfig) (s : TypeSet) : List TypeRef := s.refs.filter c.isLocal

def anyInterweave (c : InterweaveConfig) (s : TypeSet) : Bool := s.refs.any c.isInterweave

end InterweaveConfig
end Unweave
