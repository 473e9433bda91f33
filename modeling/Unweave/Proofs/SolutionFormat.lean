import Unweave.Codec.Solution
import Unweave.Proofs.TreeFormat

/-!
# What is written of a solution is read back

A solution whose JSON form is no deeper than the limit is read back from its compact form and from
its file.  The compact form of a deeper solution still determines it: the text is read whatever its
depth, and decoding only has to be given enough levels.
-/

namespace Unweave

open Json (Fits Gives Plain)

namespace Document

@[simp]
theorem plain_toJson (d : Document) : Plain d.toJson := by simp [toJson]

theorem gives (d : Document) : Gives decode d.toJson d := by
  have hkind : SourceKind.names.lookup d.kind.render = some d.kind := by cases d.kind <;> rfl
  refine .record (by decide)
    (.append (.append (.append (.append (.field ..) (.field ..)) (.ifSome ..)) (.field ..))
      (.field ..)) fun scope hr => ?_
  rw [hr.required "id" (.word d.id.val) (by simp), hr.required "name" (.text d.name) (by simp),
    hr.optional "path" d.path .text (fun _ => nofun) (by simp),
    hr.default "kind" (.choice hkind) (by simp), hr.required "root" d.root.gives (by simp)]
  rfl

end Document

namespace Project

@[simp]
theorem plain_toJson (p : Project) : Plain p.toJson := by simp [toJson]

theorem gives (p : Project) : Gives decode p.toJson p := by
  refine .record (by decide)
    (.append (.append (.append (.field ..) (.field ..)) (.field ..)) (.field ..))
    fun scope hr => ?_
  rw [hr.required "id" (.word p.id.val) (by simp), hr.required "name" (.text p.name) (by simp),
    hr.required "assembly_name" (.text p.assembly) (by simp),
    hr.default "documents" (.list p.documents fun d _ => d.gives) (by simp)]
  rfl

end Project

namespace Solution

@[simp]
theorem plain_toJson (s : Solution) : Plain s.toJson := by simp [toJson]

theorem gives (s : Solution) : Gives decode s.toJson s := by
  refine .record (by decide) (.field ..) fun scope hr => ?_
  rw [hr.default "projects" (.list s.projects fun p _ => p.gives) (by simp)]
  rfl

theorem parse?_compact (s : Solution) (h : s.toJson.depth ≤ 127) :
    parse? s.toJson.compact = some s := by
  rw [parse?, Json.parse?_compact s.plain_toJson]
  exact s.gives _ h

/-- The pretty form may be followed by blanks. -/
theorem parse?_pretty (s : Solution) (h : s.toJson.depth ≤ 127) {t : String}
    (ht : Json.Reader.Blank t.toList) : parse? (s.toJson.pretty ++ t) = some s := by
  rw [parse?, Json.parse?_pretty s.plain_toJson ht]
  exact s.gives _ h

theorem parse?_fileText (s : Solution) (h : s.toJson.depth ≤ 127) :
    parse? s.fileText = some s :=
  s.parse?_pretty h (by simp [Json.Reader.Blank, Json.Reader.isSpace])

theorem compact_injective : Function.Injective fun s : Solution => s.toJson.compact := by
  intro s t hst
  have hjson : s.toJson = t.toJson := by
    have hread : Json.parse? s.toJson.compact = Json.parse? t.toJson.compact :=
      congrArg Json.parse? hst
    rw [Json.parse?_compact s.plain_toJson, Json.parse?_compact t.plain_toJson] at hread
    exact Option.some.inj hread
  -- Neither solution need be within the limit, so both are decoded with the levels they have.
  have hs := s.gives ⟨s.toJson.depth, false⟩ (Nat.le_refl _)
  have ht := t.gives ⟨t.toJson.depth, false⟩ (Nat.le_refl _)
  rw [hjson, ht] at hs
  exact (Option.some.inj hs).symm

/-- A solution within the depth limit is read back from its compact form, from its pretty form and
from its file; and the compact form of any solution is its own. -/
theorem written_forms_read_back :
    (∀ s : Solution, s.toJson.depth ≤ 127 →
      parse? s.toJson.compact = some s ∧ parse? s.toJson.pretty = some s ∧
        parse? s.fileText = some s) ∧
    ∀ s t : Solution, s ≠ t → s.toJson.compact ≠ t.toJson.compact := by
  refine ⟨fun s h => ⟨s.parse?_compact h, ?_, s.parse?_fileText h⟩, fun s t hne heq =>
    hne (compact_injective heq)⟩
  have hpretty := s.parse?_pretty h (t := "") (by simp [Json.Reader.Blank])
  rwa [String.append_empty] at hpretty

/-- Every kind of member and accessor list, texts that need escapes, and a base type whose arguments
nest as deep as a file may. -/
def atlas : Solution where
  projects :=
    [{ id := ⟨1⟩, name := "Atlas", assembly := "Atlas"
       documents :=
        [{ id := ⟨4294967295⟩, name := "\"Karte\" \\ \t\x07\x7f", path := some "höhe/🗺.cs"
           kind := .script
           root :=
            { usings := [{ id := ⟨1⟩, name := "Länder", shorthand := some "", isStatic := true }]
              members := [.block { id := ⟨2⟩, name := "" } [], .type chart leaves]
              ending := [⟨.directive, "#endif\r\n"⟩] } }] },
     { id := ⟨0⟩, name := "", assembly := "", documents := [] }]
where
  /-- A type inside so many others. -/
  nested : Nat → TypeSymbol
    | 0 => .named "Atlas" "" "Peak"
    | n + 1 => { kind := .named, name := "Range", arguments := [nested n] }
  peak : TypeSyntax := ⟨"Peak", nested 0⟩
  arrow : Body :=
    { kind := .arrow, text := "=> Peak.Höhe"
      expressions := [{ text := "Höhe", type := some (.error "?"),
                        symbol := some { name := "Höhe", declaration := some ⟨7⟩ } }] }
  chart : TypeHead :=
    { id := ⟨3⟩, kind := .structKind, modifiers := ["partial"], name := "Chart"
      typeParameters := ["T"], bases := [⟨"Range", nested 58⟩]
      leading := [⟨.regionDirective, "#region"⟩], closing := [⟨.endRegionDirective, ""⟩] }
  leaves : List Member :=
    [.leaf { form := .delegate "D" ["T"] peak [] },
     .leaf { form := .method "M" [] peak [⟨"p", peak, true⟩] (some arrow) },
     .leaf { form := .property "A" peak (.auto true) },
     .leaf { form := .property "B" peak (.arrow arrow) },
     .leaf { form := .property "C" peak (.explicit none (some ⟨.block, "\n", []⟩)) },
     .leaf { form := .constructor "Chart" [] none },
     .leaf { modifiers := ["const"], form := .field peak [⟨"x", some arrow⟩, ⟨"y", none⟩] }]

theorem written_forms_read_back_atlas :
    atlas.toJson.depth = 127 ∧ parse? atlas.toJson.compact = some atlas ∧
      parse? atlas.toJson.pretty = some atlas ∧ parse? atlas.fileText = some atlas := by
  have hdepth : atlas.toJson.depth = 127 := by decide +kernel
  exact ⟨hdepth, written_forms_read_back.1 atlas (Nat.le_of_eq hdepth)⟩

end Solution
end Unweave
