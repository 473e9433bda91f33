import Unweave.Text.Blank
import Unweave.Tree.Basic

/-!
# Building trees by hand
-/

namespace Unweave

namespace Trivia

def comment (text : String) : Trivia := ⟨.comment, text⟩

def region (name : String) : Trivia := ⟨.regionDirective, Text.trimEnd ("#region " ++ name)⟩

def endRegion : Trivia := ⟨.endRegionDirective, "#endregion"⟩

end Trivia

namespace TypeSyntax

/-- A type written as its symbol is shown. -/
def ofSymbol (s : TypeSymbol) : TypeSyntax := ⟨s.displayName, s⟩

def void : TypeSyntax := ⟨"void", .system "Void"⟩

def int : TypeSyntax := ⟨"int", .system "Int32"⟩

def string : TypeSyntax := ⟨"string", .system "String"⟩

end TypeSyntax

namespace Accessors

/-- Set the getter; a setter stays only if it has a body of its own. -/
def withGetter (a : Accessors) (body : Body) : Accessors :=
  match a with
  | explicit _ setter => explicit (some body) setter
  | _ => explicit (some body) none

/-- Set the setter; a getter stays only if it has a body of its own. -/
def withSetter (a : Accessors) (body : Body) : Accessors :=
  match a with
  | explicit getter _ => explicit getter (some body)
  | _ => explicit none (some body)

end Accessors
end Unweave
