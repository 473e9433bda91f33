import Unweave.Layout
import Unweave.Proofs.Ink
import Unweave.Proofs.Sites

/-!
# Wording

The words of a tree are what its text says, in order: comments and directives, keywords, names,
types as they are written, bodies and punctuation.  Blanks and margins say nothing.

A layout writes all words of a member and nothing else (`Layout.padded_member`).  The words of each
declaration stand among those of the members around it (`Catalogue.words_of_mem_collectAll`), so
they are found in one piece, but for margins, in the text of each member that it stands in.
-/

namespace Unweave

open Text

/-! ## Words of trees -/

/-- The comments and directives. -/
def Trivia.wordsAll (ts : List Trivia) : List String :=
  (ts.filter (·.kind != .whitespace)).map (·.text)

def Text.commas (wss : List (List String)) : List String := [","].intercalate wss

def Text.angled (ws : List String) : List String :=
  if ws.isEmpty then [] else "<" :: commas (ws.map ([·])) ++ [">"]

def Parameter.words (p : Parameter) : List String :=
  (if p.isThis then ["this"] else []) ++ [p.type.text, p.name]

def Parameter.wordsAll (ps : List Parameter) : List String :=
  "(" :: commas (ps.map words) ++ [")"]

def Body.words (b : Body) : List String :=
  match b.kind with
  | .arrow => ["=>", b.text, ";"]
  | .block => [b.text]

/-- The words of a body, or of its absence. -/
def Body.wordsOf : Option Body → List String
  | none => [";"]
  | some b => b.words

def Accessors.words : Accessors → List String
  | auto true => ["\x7b", "get;", "set;", "\x7d"]
  | auto false => ["\x7b", "get;", "\x7d"]
  | arrow b => ["=>", b.text, ";"]
  | explicit getter setter =>
    "\x7b" :: (getter.map ("get" :: ·.words)).getD [] ++ (setter.map ("set" :: ·.words)).getD [] ++
      ["\x7d"]

def Variable.words (v : Variable) : List String :=
  match v.initializer with
  | some b => [v.name, "=", b.text]
  | none => [v.name]

def Form.words : Form → List String
  | delegate name typeParameters result parameters =>
    ["delegate", result.text, name] ++ angled typeParameters ++ Parameter.wordsAll parameters ++
      [";"]
  | method name typeParameters result parameters body =>
    [result.text, name] ++ angled typeParameters ++ Parameter.wordsAll parameters ++
      Body.wordsOf body
  | property name type accessors => [type.text, name] ++ accessors.words
  | constructor name parameters body => name :: Parameter.wordsAll parameters ++ Body.wordsOf body
  | field type declared => type.text :: commas (declared.map Variable.words) ++ [";"]

def Leaf.words (l : Leaf) : List String :=
  Trivia.wordsAll l.leading ++ l.modifiers ++ l.form.words

/-- The words of the header. -/
def TypeHead.words (h : TypeHead) : List String :=
  h.modifiers ++ [h.kind.keyword, h.name] ++ angled h.typeParameters ++
    (if h.bases.isEmpty then [] else ":" :: commas (h.bases.map ([·.text])))

def Using.words (u : Using) : List String :=
  Trivia.wordsAll u.leading ++
    match u.shorthand with
    | some short => ["using", short, "=", u.name, ";"]
    | none => "using" :: (if u.isStatic then ["static"] else []) ++ [u.name, ";"]

namespace Member

mutual

def words : Member → List String
  | block head members =>
    Trivia.wordsAll head.leading ++ ["namespace", head.name, "\x7b"] ++
      head.usings.flatMap Using.words ++ wordsAll members ++ Trivia.wordsAll head.closing ++
      ["\x7d"]
  | type head members =>
    Trivia.wordsAll head.leading ++ head.words ++ "\x7b" :: wordsAll members ++
      Trivia.wordsAll head.closing ++ ["\x7d"]
  | leaf l => l.words

def wordsAll : List Member → List String
  | [] => []
  | m :: ms => words m ++ wordsAll ms

end

end Member

/-- The words of a declaration by itself: of a type the header without modifiers, of a leaf all but
what stands in front of it. -/
def Declaration.words : Declaration → List String
  | type head _ => head.bare.words
  | leaf l => l.bare.words

/-! ## What a layout writes -/

namespace Layout

@[simp] theorem ink_arrow : ink " => " = ink "=>" := by decide

@[simp] theorem ink_equals : ink " = " = ink "=" := by decide

@[simp] theorem ink_trivia (ts : List Trivia) : ink (trivia ts) = inkAll (Trivia.wordsAll ts) := by
  rw [trivia, ink_join, Trivia.wordsAll, inkAll, inkAll, List.flatMap_map, List.flatMap_map]
  exact List.flatMap_congr fun t _ => by simp

@[simp] theorem ink_modifiers (ms : List String) : ink (modifiers ms) = inkAll ms := by
  rw [modifiers]
  split
  · next hempty =>
    rw [List.isEmpty_iff.mp hempty]
    rfl
  · rw [ink_append, ink_intercalate_of_blank ink_space, ink_space, List.append_nil]

theorem ink_commas {α : Type} {f : α → String} {words : α → List String}
    (h : ∀ x, ink (f x) = inkAll (words x)) (xs : List α) :
    ink (", ".intercalate (xs.map f)) = inkAll (commas (xs.map words)) := by
  have hcomma : ink ", " = ink "," := by decide
  have hparts : (xs.map f).map ink = (xs.map words).map inkAll := by
    rw [List.map_map, List.map_map]
    exact List.map_congr_left fun x _ => h x
  rw [ink_intercalate, commas, inkAll_intercalate, hcomma, hparts]

@[simp] theorem ink_typeParameters (ps : List String) :
    ink (typeParameters ps) = inkAll (angled ps) := by
  have hnames := ink_commas (fun p : String => (inkAll_singleton p).symm) ps
  rw [List.map_id'] at hnames
  rw [typeParameters, angled]
  split
  · rfl
  · simp [hnames]

theorem ink_parameter (p : Parameter) : ink (parameter p) = inkAll p.words := by
  have hthis : ink (if p.isThis then "this " else "") =
      inkAll (if p.isThis then ["this"] else []) := by
    cases p.isThis <;> decide
  simp [parameter, Parameter.words, hthis]

theorem inkAll_parameters (ps : List Parameter) :
    inkAll (Parameter.wordsAll ps) = ink "(" ++ (ink (parameters ps) ++ ink ")") := by
  simp [parameters, Parameter.wordsAll, ink_commas ink_parameter]

@[simp] theorem ink_withBody (header : String) (b : Option Body) :
    ink (withBody header b) = ink header ++ inkAll (Body.wordsOf b) := by
  cases b with
  | none => simp [withBody, Body.wordsOf]
  | some b =>
    rw [withBody, Body.wordsOf, Body.words]
    cases b.kind <;> simp

theorem ink_accessor (keyword : String) (b : Body) :
    ink (accessor keyword b) = inkAll (keyword :: b.words) := by
  rw [accessor, Body.words]
  cases b.kind <;> simp

@[simp] theorem ink_typeHeader (h : TypeHead) : ink (typeHeader h) = inkAll h.words := by
  have hcolon : ink " : " = ink ":" := by decide
  have htypes := ink_commas (fun t : TypeSyntax => (inkAll_singleton t.text).symm) h.bases
  simp only [typeHeader, TypeHead.words]
  split <;> simp [hcolon, htypes]

theorem ink_usingText (u : Using) : ink (usingText u) = inkAll u.words := by
  have husing : ink "using " = ink "using" := by decide
  have hstatic : ink (if u.isStatic then "using static " else "using ") =
      inkAll ("using" :: if u.isStatic then ["static"] else []) := by
    cases u.isStatic <;> decide
  rw [usingText, Using.words, ink_append, ink_trivia, inkAll_append]
  cases u.shorthand with
  | none => simp [hstatic]
  | some short => simp [husing]

@[simp] theorem inkAll_usings (us : List Using) :
    inkAll (usings us) = inkAll (us.flatMap Using.words) := by
  rw [usings]
  split
  · next hempty =>
    rw [List.isEmpty_iff.mp hempty]
    rfl
  · rw [inkAll_cons, inkAll_nil, List.append_nil, ink_intercalate_of_blank ink_feed, inkAll,
      inkAll, List.flatMap_map, List.flatMap_assoc]
    exact List.flatMap_congr fun u _ => ink_usingText u

theorem ink_variableText (v : Variable) : ink (variableText v) = inkAll v.words := by
  rw [variableText, Variable.words]
  cases v.initializer <;> simp

variable (layout : Layout)

/-- A part of a block is written further in, unless it is empty. -/
theorem padded_part {t u : String} (h : ink u = ink t) :
    Padded (ink layout.margin) (ink t)
      (ink (if t.isEmpty then "" else "\n" ++ indent layout.margin u)) := by
  split
  · next hempty =>
    rw [String.isEmpty_iff.mp hempty]
    exact .refl
  · rw [ink_append, ink_feed, ← h]
    exact padded_indent layout.margin u

theorem padded_braced (header : String) {parts ws : List String} (closing : List Trivia)
    (h : Padded (ink layout.margin) (inkAll ws) (inkAll parts)) :
    Padded (ink layout.margin)
      (ink header ++ inkAll ("\x7b" :: ws ++ Trivia.wordsAll closing ++ ["\x7d"]))
      (ink (layout.braced header parts closing)) := by
  have hopen : ink "\n\x7b" = ink "\x7b" := by decide
  have hclose : ink "\n\x7d" = ink "\x7d" := by decide
  have hparts : ink ("\n\n".intercalate parts) = inkAll parts :=
    ink_intercalate_of_blank (by decide) parts
  have hinner := layout.padded_part (Eq.refl (ink ("\n\n".intercalate parts)))
  rw [hparts] at hinner
  have hclosing := layout.padded_part (ink_trimEnd (trivia closing))
  have hwhole := ((Padded.append_left (ink header ++ ink "\x7b") (h.trans hinner)).append
    hclosing).append_right (ink "\x7d")
  simp only [ink_trivia, List.append_assoc] at hwhole
  simp only [braced, ink_append, hopen, hclose, inkAll_append, inkAll_cons, inkAll_nil,
    List.append_nil, List.append_assoc]
  exact hwhole

theorem padded_property (header : String) (accessors : Accessors) :
    Padded (ink layout.margin) (ink header ++ inkAll accessors.words)
      (ink (layout.property header accessors)) := by
  cases accessors with
  | auto setter =>
    cases setter <;>
    · rw [property, ink_append]
      exact .of_eq (congrArg (ink header ++ ·) (by decide))
  | arrow b => exact .of_eq (by simp [property, Accessors.words])
  | explicit getter setter =>
    have hoption : ∀ (keyword : String) (b : Option Body),
        inkAll ((b.map (keyword :: ·.words)).getD []) =
          inkAll (b.map (accessor keyword)).toList := by
      intro keyword b
      cases b with
      | none => rfl
      | some b => exact (ink_accessor keyword b).symm.trans (List.append_nil _).symm
    have hparts : Padded (ink layout.margin)
        (inkAll ((getter.map ("get" :: ·.words)).getD [] ++
          (setter.map ("set" :: ·.words)).getD []))
        (inkAll ((getter.map (accessor "get")).toList ++
          (setter.map (accessor "set")).toList)) :=
      .of_eq (by rw [inkAll_append, inkAll_append, hoption, hoption])
    have hbraced := layout.padded_braced header [] hparts
    simp only [Trivia.wordsAll, List.filter_nil, List.map_nil, List.append_nil] at hbraced
    exact hbraced

/-- A leaf without its leading trivia. -/
theorem padded_leafText (l : Leaf) :
    Padded (ink layout.margin) (inkAll (l.modifiers ++ l.form.words))
      (ink (layout.leafText l)) := by
  rw [leafText]
  cases l.form with
  | delegate name typeParameters result parameters =>
    have hdelegate : ink "delegate " = ink "delegate" := by decide
    have hend : ink ");" = ink ")" ++ ink ";" := by decide
    exact .of_eq (by simp [Form.words, inkAll_parameters, hdelegate, hend])
  | method name typeParameters result parameters body =>
    exact .of_eq (by simp [Form.words, inkAll_parameters])
  | property name type accessors =>
    have hproperty := layout.padded_property
      (modifiers l.modifiers ++ type.text ++ " " ++ name) accessors
    simp only [ink_append, ink_modifiers, ink_space, List.append_nil, List.append_assoc]
      at hproperty
    simp only [Form.words, inkAll_append, inkAll_cons, inkAll_nil, List.append_nil,
      List.append_assoc]
    exact hproperty
  | constructor name parameters body =>
    exact .of_eq (by simp [Form.words, inkAll_parameters])
  | field type declared =>
    exact .of_eq (by simp [Form.words, ink_commas ink_variableText])

/-- A layout writes the words of members and adds nothing but blanks and margins. -/
theorem padded_members (ms : List Member) :
    Padded (ink layout.margin) (inkAll (Member.wordsAll ms)) (inkAll (layout.members ms)) := by
  have hkeyword : ink "namespace " = ink "namespace" := by decide
  induction ms using Member.listInduction with
  | nil => exact .refl
  | block head inner ms ihInner ih =>
    have hparts : Padded (ink layout.margin)
        (inkAll (head.usings.flatMap Using.words ++ Member.wordsAll inner))
        (inkAll (usings head.usings ++ layout.members inner)) := by
      rw [inkAll_append, inkAll_append, inkAll_usings]
      exact ihInner.append_left _
    have hblock := (layout.padded_braced ("namespace " ++ head.name) head.closing
      hparts).append_left (ink (trivia head.leading))
    rw [Member.wordsAll, inkAll_append, members, inkAll_cons, member]
    refine Padded.append ?_ ih
    rw [ink_append]
    simpa [Member.words, hkeyword] using hblock
  | type head inner ms ihInner ih =>
    have htype := (layout.padded_braced (typeHeader head) head.closing
      ihInner).append_left (ink (trivia head.leading))
    rw [Member.wordsAll, inkAll_append, members, inkAll_cons, member]
    refine Padded.append ?_ ih
    rw [ink_append]
    simpa [Member.words] using htype
  | leaf l ms ih =>
    rw [Member.wordsAll, inkAll_append, members, inkAll_cons, member]
    refine Padded.append ?_ ih
    rw [Member.words, Leaf.words, List.append_assoc, inkAll_append, ink_append, ink_trivia]
    exact (layout.padded_leafText l).append_left _

theorem padded_member (m : Member) :
    Padded (ink layout.margin) (inkAll m.words) (ink (layout.member m)) := by
  have h := layout.padded_members [m]
  rw [Member.wordsAll, Member.wordsAll, List.append_nil, members, members, inkAll_cons, inkAll_nil,
    List.append_nil] at h
  exact h

end Layout

/-! ## Declarations among words -/

theorem Leaf.words_bare (l : Leaf) : l.words = Trivia.wordsAll l.leading ++ l.bare.words := by
  rw [words, List.append_assoc]
  rfl

theorem TypeHead.words_bare (h : TypeHead) : h.words = h.modifiers ++ h.bare.words := by
  rw [words, List.append_assoc, List.append_assoc]
  rfl

/-- A declaration is told within the members that it stands in. -/
theorem Catalogue.words_of_mem_collectAll {document : DocumentId} {space : String}
    {container : Option TypeHead} {depth : Nat} {ms : List Member} {e : Entry}
    (h : e ∈ collectAll document space container depth ms) :
    e.declaration.words <:+: Member.wordsAll ms := by
  have hfirst : ∀ (m : Member) (ms : List Member), m.words <:+: Member.wordsAll (m :: ms) :=
    fun m ms => ⟨[], Member.wordsAll ms, rfl⟩
  have hrest : ∀ (m : Member) (ms : List Member),
      Member.wordsAll ms <:+: Member.wordsAll (m :: ms) :=
    fun m ms => ⟨m.words, [], List.append_nil _⟩
  induction ms using Member.listInduction generalizing space container depth with
  | nil => cases h
  | block head inner ms ihInner ih =>
    have hinner : Member.wordsAll inner <:+: (Member.block head inner).words :=
      ⟨_, Trivia.wordsAll head.closing ++ ["\x7d"], by
        rw [Member.words, ← List.append_assoc]⟩
    rw [collectAll, collect, List.mem_append] at h
    rcases h with h | h
    · exact ((ihInner h).trans hinner).trans (hfirst _ ms)
    · exact (ih h).trans (hrest _ ms)
  | type head inner ms ihInner ih =>
    have hhead : head.bare.words <:+: (Member.type head inner).words :=
      ⟨Trivia.wordsAll head.leading ++ head.modifiers,
        "\x7b" :: Member.wordsAll inner ++ Trivia.wordsAll head.closing ++ ["\x7d"], by
        rw [Member.words, head.words_bare]
        simp only [List.append_assoc, List.cons_append]⟩
    have hinner : Member.wordsAll inner <:+: (Member.type head inner).words :=
      ⟨Trivia.wordsAll head.leading ++ head.words ++ ["\x7b"],
        Trivia.wordsAll head.closing ++ ["\x7d"], by
        rw [Member.words]
        simp only [List.append_assoc, List.cons_append, List.nil_append]⟩
    rw [collectAll, collect, List.mem_append, List.mem_cons] at h
    rcases h with (rfl | h) | h
    · exact hhead.trans (hfirst _ ms)
    · exact ((ihInner h).trans hinner).trans (hfirst _ ms)
    · exact (ih h).trans (hrest _ ms)
  | leaf l ms ih =>
    have hleaf : l.bare.words <:+: (Member.leaf l).words :=
      ⟨Trivia.wordsAll l.leading, [], by rw [List.append_nil, Member.words, l.words_bare]⟩
    rw [collectAll, collect, List.mem_append, List.mem_singleton] at h
    rcases h with rfl | h
    · exact hleaf.trans (hfirst _ ms)
    · exact (ih h).trans (hrest _ ms)

end Unweave
