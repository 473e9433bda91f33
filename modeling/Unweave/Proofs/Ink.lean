import Mathlib.Data.List.Basic
import Unweave.Text.Blank
import Unweave.Text.Lines

/-!
# Ink

The ink of a text is what is left of it without blanks.  Trimming and splitting into lines leave the
ink alone, and indenting adds the ink of the margin here and there (`Text.padded_indent`).  So a
text that is put together from words, trimmed and indented along the way, shows these words in
order, and each of them in one piece but for margins (`Text.Shows`).
-/

namespace Unweave
namespace Text

/-- The characters that are not blank. -/
def ink (s : String) : List Char := s.toList.filter (!isBlank ·)

/-- The ink of words that stand one after the other. -/
def inkAll (ws : List String) : List Char := ws.flatMap ink

@[simp] theorem ink_append (s t : String) : ink (s ++ t) = ink s ++ ink t := by
  rw [ink, String.toList_append, List.filter_append]
  rfl

@[simp] theorem ink_space : ink " " = [] := by decide

@[simp] theorem ink_feed : ink "\n" = [] := by decide

@[simp] theorem inkAll_nil : inkAll [] = [] := rfl

@[simp] theorem inkAll_cons (w : String) (ws : List String) :
    inkAll (w :: ws) = ink w ++ inkAll ws := rfl

theorem inkAll_singleton (w : String) : inkAll [w] = ink w := List.append_nil _

@[simp] theorem inkAll_append (ws vs : List String) : inkAll (ws ++ vs) = inkAll ws ++ inkAll vs :=
  List.flatMap_append

/-! ## Trimming -/

theorem filter_dropWhile_isBlank (cs : List Char) :
    (cs.dropWhile isBlank).filter (!isBlank ·) = cs.filter (!isBlank ·) := by
  induction cs with
  | nil => rfl
  | cons c cs ih =>
    cases hc : isBlank c with
    | true => rw [List.dropWhile_cons_of_pos hc, ih, List.filter_cons_of_neg (by simp [hc])]
    | false => rw [List.dropWhile_cons_of_neg (by simp [hc])]

theorem filter_dropEnd (cs : List Char) :
    (dropEnd cs).filter (!isBlank ·) = cs.filter (!isBlank ·) := by
  rw [dropEnd, List.filter_reverse, filter_dropWhile_isBlank, List.filter_reverse,
    List.reverse_reverse]

@[simp] theorem ink_trimEnd (s : String) : ink (trimEnd s) = ink s := by
  rw [ink, trimEnd, String.toList_ofList, filter_dropEnd]
  rfl

@[simp] theorem ink_trim (s : String) : ink (trim s) = ink s := by
  rw [ink, trim, String.toList_ofList, filter_dropEnd, filter_dropWhile_isBlank]
  rfl

/-! ## Joining -/

theorem ink_join (ss : List String) : ink (String.join ss) = inkAll ss := by
  rw [ink, String.toList_join, List.filter_flatMap]
  rfl

/-- What goes through appends goes through separators. -/
theorem map_intercalate {α β : Type} {f : List α → List β} (hnil : f [] = [])
    (happend : ∀ xs ys, f (xs ++ ys) = f xs ++ f ys) (sep : List α) (xss : List (List α)) :
    f (sep.intercalate xss) = (f sep).intercalate (xss.map f) := by
  induction xss with
  | nil => exact hnil
  | cons xs xss ih =>
    cases xss with
    | nil => rw [List.intercalate_singleton, List.map_singleton, List.intercalate_singleton]
    | cons ys xss =>
      rw [List.intercalate_cons_cons, happend, happend, ih]
      exact List.intercalate_cons_cons.symm

theorem ink_intercalate (sep : String) (ss : List String) :
    ink (sep.intercalate ss) = (ink sep).intercalate (ss.map ink) := by
  rw [ink, String.toList_intercalate, map_intercalate rfl fun _ _ => List.filter_append ..,
    List.map_map]
  rfl

/-- Words with another word between them. -/
theorem inkAll_intercalate (sep : String) (wss : List (List String)) :
    inkAll ([sep].intercalate wss) = (ink sep).intercalate (wss.map inkAll) := by
  rw [map_intercalate inkAll_nil inkAll_append, inkAll_singleton]

theorem ink_intercalate_of_blank {sep : String} (h : ink sep = []) (ss : List String) :
    ink (sep.intercalate ss) = inkAll ss := by
  rw [ink_intercalate, h]
  show ([] : List Char).intercalate (ss.map ink) = (ss.map ink).flatten
  induction ss.map ink with
  | nil => rfl
  | cons t ts ih =>
    cases ts with
    | nil => rfl
    | cons t' ts =>
      rw [List.intercalate_cons_cons, ih, List.append_nil]
      rfl

/-! ## Lines -/

theorem filter_withoutReturn (line : List Char) :
    (withoutReturn line).filter (!isBlank ·) = line.filter (!isBlank ·) := by
  rw [withoutReturn.eq_def]
  split
  · exact (List.filter_cons_of_neg (by decide)).symm
  · rfl

theorem flatMap_linesFrom (line cs : List Char) :
    (linesFrom line cs).flatMap (List.filter (!isBlank ·)) =
      (line.reverse ++ cs).filter (!isBlank ·) := by
  induction cs generalizing line with
  | nil =>
    rw [linesFrom, List.append_nil]
    split
    · next hempty =>
      rw [List.isEmpty_iff.mp hempty]
      rfl
    · exact List.flatMap_singleton _ _
  | cons c cs ih =>
    rw [linesFrom]
    split
    · next hfeed =>
      subst hfeed
      have hblank : ('\n' :: cs).filter (!isBlank ·) = cs.filter (!isBlank ·) :=
        List.filter_cons_of_neg (by decide)
      rw [List.flatMap_cons, ih, List.filter_append line.reverse, hblank, List.filter_reverse,
        filter_withoutReturn, List.filter_reverse]
      rfl
    · rw [ih, List.reverse_cons, List.append_assoc]
      rfl

/-- A text has the ink of its lines. -/
theorem inkAll_lines (s : String) : inkAll (lines s) = ink s := by
  have hlines := flatMap_linesFrom [] s.toList
  rw [inkAll, lines, List.flatMap_map]
  simp only [ink, String.toList_ofList]
  exact hlines

/-! ## Margins -/

/-- The second list is the first one with margins put in. -/
inductive Padded {α : Type} (margin s : List α) : List α → Prop where
  | refl : Padded margin s s
  | insert {u v : List α} (h : Padded margin s (u ++ v)) : Padded margin s (u ++ margin ++ v)

namespace Padded

variable {α : Type} {margin s s' t t' u : List α}

theorem of_eq (h : s = t) : Padded margin s t := h ▸ .refl

theorem trans (h : Padded margin s t) (h' : Padded margin t u) : Padded margin s u := by
  induction h' with
  | refl => exact h
  | insert _ ih => exact .insert ih

theorem append_right (h : Padded margin s t) (v : List α) : Padded margin (s ++ v) (t ++ v) := by
  induction h with
  | refl => exact .refl
  | @insert u w _ ih =>
    rw [List.append_assoc] at ih
    rw [List.append_assoc]
    exact .insert ih

theorem append_left (v : List α) (h : Padded margin s t) : Padded margin (v ++ s) (v ++ t) := by
  induction h with
  | refl => exact .refl
  | @insert u w _ ih =>
    rw [← List.append_assoc] at ih
    rw [← List.append_assoc, ← List.append_assoc]
    exact .insert ih

theorem append (h : Padded margin s t) (h' : Padded margin s' t') :
    Padded margin (s ++ s') (t ++ t') :=
  (h.append_right s').trans (h'.append_left t)

theorem pad (h : Padded margin s t) : Padded margin s (margin ++ t) :=
  @insert α margin s [] t h

/-- The parts of a list are padded one by one. -/
theorem split {a b : List α} (h : Padded margin (a ++ b) t) :
    ∃ a' b', t = a' ++ b' ∧ Padded margin a a' ∧ Padded margin b b' := by
  induction h with
  | refl => exact ⟨a, b, rfl, .refl, .refl⟩
  | @insert u v _ ih =>
    obtain ⟨a', b', heq, ha, hb⟩ := ih
    -- The new margin goes into the first part or into the second.
    rcases List.append_eq_append_iff.mp heq with ⟨x, rfl, rfl⟩ | ⟨x, rfl, rfl⟩
    · refine ⟨u ++ margin ++ x, b', ?_, .insert ha, hb⟩
      simp only [List.append_assoc]
    · refine ⟨a', x ++ margin ++ v, ?_, ha, .insert hb⟩
      simp only [List.append_assoc]

/-- What stands in a list in one piece does so when margins are put in, but for these. -/
theorem passage {a : List α} (h : Padded margin s t) (ha : a <:+: s) :
    ∃ a', a' <:+: t ∧ Padded margin a a' := by
  obtain ⟨x, y, rfl⟩ := ha
  obtain ⟨xa, y', rfl, hxa, -⟩ := h.split
  obtain ⟨x', a', rfl, -, ha⟩ := hxa.split
  exact ⟨a', ⟨x', y', rfl⟩, ha⟩

theorem eq_of_nil (h : Padded [] s t) : t = s := by
  induction h with
  | refl => rfl
  | insert _ ih => rwa [List.append_nil]

end Padded

theorem padded_indent (margin s : String) :
    Padded (ink margin) (ink s) (ink (indent margin s)) := by
  rw [indent, ink_intercalate_of_blank ink_feed, ← inkAll_lines s]
  induction lines s with
  | nil => exact .refl
  | cons line rest ih =>
    rw [List.map_cons, inkAll_cons, inkAll_cons]
    refine Padded.append ?_ ih
    split
    · exact .refl
    · rw [ink_append]
      exact Padded.refl.pad

/-! ## Passages -/

/-- The words stand in the text one after the other, but for blanks and for margins. -/
def Shows (margin : String) (words : List String) (text : String) : Prop :=
  ∃ passage, passage <:+: ink text ∧ Padded (ink margin) (inkAll words) passage

theorem inkAll_within {ws vs : List String} (h : ws <:+: vs) : inkAll ws <:+: inkAll vs := by
  obtain ⟨x, y, rfl⟩ := h
  rw [inkAll_append, inkAll_append]
  exact ⟨_, _, rfl⟩

theorem Shows.of_padded {margin text : String} {ws vs : List String}
    (h : Padded (ink margin) (inkAll vs) (ink text)) (hws : ws <:+: vs) : Shows margin ws text :=
  h.passage (inkAll_within hws)

/-- Where the margin is blank, as it usually is, the words stand in one piece. -/
theorem Shows.within {margin text : String} {ws : List String} (h : Shows margin ws text)
    (hmargin : ink margin = []) : inkAll ws <:+: ink text := by
  obtain ⟨passage, hpassage, hpadded⟩ := h
  rw [hmargin] at hpadded
  rw [← hpadded.eq_of_nil]
  exact hpassage

end Text
end Unweave
