import Unweave.Text.Blank
import Unweave.Text.Lines
import Unweave.Tree.Basic

/-!
# Layout

Source text of a tree.  A block or type puts its parts between braces on lines of their own, a blank
line apart and one margin further in; leading comments and directives stand above what they lead.
-/

namespace Unweave

structure Layout where
  margin : String := "    "
deriving DecidableEq

namespace Layout

def trivia (ts : List Trivia) : String :=
  String.join ((ts.filter (·.kind != .whitespace)).map fun t => Text.trimEnd t.text ++ "\n")

def modifiers (ms : List String) : String :=
  if ms.isEmpty then "" else " ".intercalate ms ++ " "

def typeParameters (ps : List String) : String :=
  if ps.isEmpty then "" else "<" ++ ", ".intercalate ps ++ ">"

def parameter (p : Parameter) : String :=
  (if p.isThis then "this " else "") ++ p.type.text ++ " " ++ p.name

def parameters (ps : List Parameter) : String := ", ".intercalate (ps.map parameter)

/-- A header with its body, or closed at once. -/
def withBody (header : String) : Option Body → String
  | none => header ++ ";"
  | some b =>
    match b.kind with
    | .arrow => header ++ " => " ++ Text.trim b.text ++ ";"
    | .block => header ++ "\n" ++ Text.trim b.text

def accessor (keyword : String) (b : Body) : String :=
  match b.kind with
  | .arrow => keyword ++ " => " ++ Text.trim b.text ++ ";"
  | .block => keyword ++ " " ++ Text.trim b.text

def typeHeader (h : TypeHead) : String :=
  let bases := if h.bases.isEmpty then "" else " : " ++ ", ".intercalate (h.bases.map (·.text))
  modifiers h.modifiers ++ h.kind.keyword ++ " " ++ h.name ++ typeParameters h.typeParameters ++
    bases

def usingText (u : Using) : String :=
  let text :=
    match u.shorthand with
    | some short => "using " ++ short ++ " = " ++ u.name ++ ";"
    | none => (if u.isStatic then "using static " else "using ") ++ u.name ++ ";"
  trivia u.leading ++ text

/-- The using directives as one part, if there are any. -/
def usings (us : List Using) : List String :=
  if us.isEmpty then [] else ["\n".intercalate (us.map usingText)]

def variableText (v : Variable) : String :=
  match v.initializer with
  | some b => v.name ++ " = " ++ Text.trim b.text
  | none => v.name

variable (layout : Layout)

/-- A header and its parts between braces. -/
def braced (header : String) (parts : List String) (closing : List Trivia) : String :=
  let inner := "\n\n".intercalate parts
  let close := trivia closing
  header ++ "\n\x7b" ++
    (if inner.isEmpty then "" else "\n" ++ Text.indent layout.margin inner) ++
    (if close.isEmpty then "" else "\n" ++ Text.indent layout.margin (Text.trimEnd close)) ++
    "\n\x7d"

def property (header : String) : Accessors → String
  | .auto true => header ++ " \x7b get; set; \x7d"
  | .auto false => header ++ " \x7b get; \x7d"
  | .arrow b => header ++ " => " ++ Text.trim b.text ++ ";"
  | .explicit getter setter =>
    layout.braced header
      ((getter.map (accessor "get")).toList ++ (setter.map (accessor "set")).toList) []

/-- A leaf without its leading trivia. -/
def leafText (l : Leaf) : String :=
  let start := modifiers l.modifiers
  match l.form with
  | .delegate name tps result ps =>
    start ++ "delegate " ++ result.text ++ " " ++ name ++ typeParameters tps ++
      "(" ++ parameters ps ++ ");"
  | .method name tps result ps body =>
    withBody
      (start ++ result.text ++ " " ++ name ++ typeParameters tps ++ "(" ++ parameters ps ++ ")") body
  | .property name type accessors => layout.property (start ++ type.text ++ " " ++ name) accessors
  | .constructor name ps body => withBody (start ++ name ++ "(" ++ parameters ps ++ ")") body
  | .field type vs =>
    start ++ type.text ++ " " ++ ", ".intercalate (vs.map variableText) ++ ";"

mutual

def member : Member → String
  | .block head ms =>
    trivia head.leading ++
      layout.braced ("namespace " ++ head.name) (usings head.usings ++ members ms) head.closing
  | .type head ms =>
    trivia head.leading ++ layout.braced (typeHeader head) (members ms) head.closing
  | .leaf l => trivia l.leading ++ layout.leafText l

def members : List Member → List String
  | [] => []
  | m :: ms => member m :: members ms

end

/-- A whole document. -/
def root (r : Root) : String :=
  let parts := usings r.usings ++ layout.members r.members
  let ending := trivia r.ending
  "\n\n".intercalate parts ++ (if ending.isEmpty then "" else "\n" ++ Text.trimEnd ending) ++ "\n"

end Layout
end Unweave
