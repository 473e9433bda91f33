import Unweave.Proofs.Settled
import Unweave.Proofs.SolutionFormat

/-!
# Directives and declarations of the same identifier

Needless directives are erased by their identifiers.  A file may leave identifiers out, and then all
of them read as zero; nothing that reads a file asks for distinct ones.  So a declaration can bear
the identifier of a needless directive, and it is erased along with the directive, together with
everything inside it.

What remains is said by `Thinned`: using directives may be missing anywhere, and of the declarations
those that are lost.  Removing needless directives touches nothing but directives exactly if no
declaration bears the identifier of a reported one.
-/

namespace Unweave

/-! ## Thinned trees -/

namespace Member

/-- The first list is the second one without some using directives and without the members whose
identifiers are lost.  All other members are the same, in the same places. -/
inductive Thinned (lost : NodeId → Prop) : List Member → List Member → Prop
  | nil : Thinned lost [] []
  | drop {m : Member} {ms' ms : List Member} (h : lost m.id) (rest : Thinned lost ms' ms) :
      Thinned lost ms' (m :: ms)
  | block {head : BlockHead} {usings : List Using} {inner' inner ms' ms : List Member}
      (h : ¬ lost head.id) (fewer : usings.Sublist head.usings)
      (inside : Thinned lost inner' inner) (rest : Thinned lost ms' ms) :
      Thinned lost (.block { head with usings := usings } inner' :: ms') (.block head inner :: ms)
  | type {head : TypeHead} {inner' inner ms' ms : List Member} (h : ¬ lost head.id)
      (inside : Thinned lost inner' inner) (rest : Thinned lost ms' ms) :
      Thinned lost (.type head inner' :: ms') (.type head inner :: ms)
  | leaf {l : Leaf} {ms' ms : List Member} (h : ¬ lost l.id) (rest : Thinned lost ms' ms) :
      Thinned lost (.leaf l :: ms') (.leaf l :: ms)

theorem thinned_eraseAll (gone : NodeId → Bool) (ms : List Member) :
    Thinned (gone · = true) (eraseAll gone ms) ms := by
  induction ms using eraseInduction gone with
  | nil => exact .nil
  | drop m ms hg ih =>
    rw [eraseAll_cons_of_gone hg]
    exact .drop hg ih
  | block head inner ms hg ihInner ih =>
    rw [eraseAll_cons_of_kept hg]
    exact .block (Bool.eq_false_iff.mp hg) List.filter_sublist ihInner ih
  | type head inner ms hg ihInner ih =>
    rw [eraseAll_cons_of_kept hg]
    exact .type (Bool.eq_false_iff.mp hg) ihInner ih
  | leaf l ms hg ih =>
    rw [eraseAll_cons_of_kept hg]
    exact .leaf (Bool.eq_false_iff.mp hg) ih

variable {lost lost' : NodeId → Prop} {ms' ms : List Member}

/-- Only the identifiers that are declared decide what is lost. -/
theorem Thinned.congr (h : Thinned lost ms' ms) (hlost : ∀ id ∈ declaredAll ms, lost id ↔ lost' id) :
    Thinned lost' ms' ms := by
  induction h with
  | nil => exact .nil
  | @drop m ms' ms hm _ ih =>
    have hid : m.id ∈ declaredAll (m :: ms) := by
      cases m <;> exact List.mem_append_left _ List.mem_cons_self
    exact .drop ((hlost _ hid).mp hm) (ih fun id hid => hlost id (List.mem_append_right _ hid))
  | block hhead fewer _ _ ihInner ih =>
    simp only [declaredAll, declared, List.mem_append, List.mem_cons] at hlost
    exact .block (fun h => hhead ((hlost _ (Or.inl (Or.inl rfl))).mpr h)) fewer
      (ihInner fun id hid => hlost id (Or.inl (Or.inr hid)))
      (ih fun id hid => hlost id (Or.inr hid))
  | type hhead _ _ ihInner ih =>
    simp only [declaredAll, declared, List.mem_append, List.mem_cons] at hlost
    exact .type (fun h => hhead ((hlost _ (Or.inl (Or.inl rfl))).mpr h))
      (ihInner fun id hid => hlost id (Or.inl (Or.inr hid)))
      (ih fun id hid => hlost id (Or.inr hid))
  | leaf hl _ ih =>
    simp only [declaredAll, declared, List.mem_append, List.mem_singleton] at hlost
    exact .leaf (fun h => hl ((hlost _ (Or.inl rfl)).mpr h))
      (ih fun id hid => hlost id (Or.inr hid))

/-- Where no member is lost, the same is declared. -/
theorem Thinned.declaredAll_eq (h : Thinned (fun _ => False) ms' ms) :
    declaredAll ms' = declaredAll ms := by
  induction h with
  | nil => rfl
  | drop hm => exact hm.elim
  | block _ _ _ _ ihInner ih =>
    rw [declaredAll, declared, ihInner, ih, declaredAll, declared]
  | type _ _ _ ihInner ih =>
    rw [declaredAll, declared, ihInner, ih, declaredAll, declared]
  | leaf _ _ ih => rw [declaredAll, ih, declaredAll]

end Member

/-! ## Documents -/

namespace Document

/-- Some report is about a directive with this identifier. -/
def Reports (d : Document) (id : NodeId) : Prop :=
  ∃ x ∈ Check.needlessUsings d, x.node = some id

/-- The first document is the second one, without some using directives and without the declarations
whose identifiers are lost. -/
structure Thinned (lost : NodeId → Prop) (e d : Document) : Prop where
  same : { e with root := d.root } = d
  usings : e.root.usings.Sublist d.root.usings
  members : Member.Thinned lost e.root.members d.root.members
  ending : e.root.ending = d.root.ending

theorem reports_iff (d : Document) (id : NodeId) :
    d.Reports id ↔ (CleanUp.needless (Check.needlessUsings d)).contains id = true := by
  rw [List.contains_iff_mem, CleanUp.mem_needless_iff]
  constructor
  · rintro ⟨x, hx, hid⟩
    obtain ⟨-, -, -, hcode⟩ := CleanUp.exists_using_of_needlessUsings hx
    exact ⟨x, hx, hcode, hid⟩
  · rintro ⟨x, hx, -, hid⟩
    exact ⟨x, hx, hid⟩

theorem thinned_erase (d : Document) (gone : NodeId → Bool) :
    (d.erase gone).Thinned (gone · = true) d where
  same := rfl
  usings := List.filter_sublist
  members := Member.thinned_eraseAll gone d.root.members
  ending := rfl

theorem Thinned.congr {lost lost' : NodeId → Prop} {e d : Document} (h : e.Thinned lost d)
    (hlost : ∀ id ∈ d.root.declared, lost id ↔ lost' id) : e.Thinned lost' d :=
  { h with members := h.members.congr hlost }

/-- Erasing takes directives only exactly if no declaration is erased. -/
theorem thinned_erase_iff (d : Document) (gone : NodeId → Bool) :
    (d.erase gone).Thinned (fun _ => False) d ↔ ∀ id ∈ d.root.declared, gone id = false := by
  constructor
  · intro h id hid
    -- Erasing leaves no erased declaration, and it has left all of them.
    have hkept : id ∈ Member.declaredAll (d.erase gone).root.members :=
      h.members.declaredAll_eq ▸ hid
    exact Member.keeps_eraseAll gone d.root.members id hkept
  · intro h
    refine (d.thinned_erase gone).congr fun id hid => ?_
    rw [h id hid]
    exact iff_of_false Bool.false_ne_true not_false

end Document

/-- Removing needless directives takes out the declarations that bear the identifier of one that is
reported, and otherwise only shortens lists of directives.  So it leaves all declarations as they
are exactly if none of them bears such an identifier. -/
theorem CleanUp.removeUsings_thins (p : Project) (d : Document) :
    ∃ e, (removeUsings fun _ d => Check.needlessUsings d).apply p d = .ok e ∧
      e.Thinned d.Reports d ∧
      (e.Thinned (fun _ => False) d ↔ ∀ id ∈ d.root.declared, ¬ d.Reports id) := by
  refine ⟨_, removeUsings_apply _ p d, ?_, ?_⟩
  · exact (d.thinned_erase _).congr fun id _ => (d.reports_iff id).symm
  · simp only [d.thinned_erase_iff, d.reports_iff, Bool.not_eq_true]

/-! ## A file without identifiers -/

namespace Ledger

/-- A directive that nothing needs and a type, none of them with an identifier. -/
def document : Document where
  id := ⟨1⟩
  name := "Ledger.cs"
  root :=
    { usings := [{ name := "System.Text" }]
      members :=
        [.type { kind := .classKind, name := "Ledger" }
          [.leaf { form := .constructor "Ledger" [] none }]] }

def project : Project := { id := ⟨1⟩, name := "Books", assembly := "Books", documents := [document] }

/-- How a file says so. -/
def json : Json :=
  .obj [("projects", .arr [.obj [("id", .ofNat 1), ("name", .str "Books"),
    ("assembly_name", .str "Books"), ("documents", .arr [.obj [("id", .ofNat 1),
      ("name", .str "Ledger.cs"), ("root", .obj [
        ("usings", .arr [.obj [("name", .str "System.Text")]]),
        ("members", .arr [.obj [("decl", .str "type"), ("kind", .str "class"),
          ("name", .str "Ledger"), ("members", .arr [
            .obj [("decl", .str "constructor"), ("name", .str "Ledger")]])]])])]])]])]

/-- The file is read, and removing the directive leaves nothing of the document. -/
theorem removeUsings_empties :
    Solution.parse? json.compact = some { projects := [project] } ∧
    (CleanUp.removeUsings fun _ d => Check.needlessUsings d).apply project document =
      .ok { document with root := {} } ∧
    ¬ ({ document with root := {} } : Document).Thinned (fun _ => False) document := by
  refine ⟨?_, by decide +kernel, fun h => ?_⟩
  · rw [Solution.parse?, Json.parse?_compact (by simp [json, Json.ofNat, Json.Range.wordBound])]
    decide +kernel
  · have hdeclared := h.members.declaredAll_eq
    cases hdeclared

end Ledger
end Unweave
