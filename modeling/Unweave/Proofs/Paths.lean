import Mathlib.Data.List.DropRight
import Mathlib.Data.Set.Finite.Basic
import Unweave.Path

/-!
# Where paths lead

Whether a path leads out of the directory that it is joined to is decided by its text.  It is walked
part by part, and no step may go up from the directory itself (`Path.inside_join_iff`).  The last
name of a path never leads out (`Path.stays_of_fileName?`).

Without the parts that say nothing and the steps that are taken back, a path goes up some steps and
then down through some names.  This normal form says where it leads (`Path.resolve_eq_normal`).
-/

namespace Unweave
namespace Path

/-! ## Parts -/

theorem split_slash (cs : List Char) : split ('/' :: cs) = [] :: split cs := by
  rw [split, if_pos rfl]

theorem exists_split (cs : List Char) : ∃ part rest, split cs = part :: rest := by
  cases cs with
  | nil => exact ⟨[], [], rfl⟩
  | cons c cs =>
    rw [split]
    split
    · exact ⟨_, _, rfl⟩
    · split <;> exact ⟨_, _, rfl⟩

theorem split_cons {c : Char} (hc : c ≠ '/') {cs part : List Char} {rest : List (List Char)}
    (h : split cs = part :: rest) : split (c :: cs) = (c :: part) :: rest := by
  rw [split, if_neg hc, h]

theorem split_append_slash (xs ys : List Char) :
    split (xs ++ '/' :: ys) = split xs ++ split ys := by
  induction xs with
  | nil => exact split_slash ys
  | cons c xs ih =>
    by_cases hc : c = '/'
    · rw [hc, List.cons_append, split_slash, split_slash, ih, List.cons_append]
    · obtain ⟨part, rest, h⟩ := exists_split xs
      rw [h, List.cons_append] at ih
      rw [List.cons_append, split_cons hc ih, split_cons hc h, List.cons_append]

theorem split_of_not_mem {xs : List Char} (h : '/' ∉ xs) : split xs = [xs] := by
  induction xs with
  | nil => rfl
  | cons c xs ih =>
    rw [List.mem_cons, not_or] at h
    exact split_cons (Ne.symm h.1) (ih h.2)

theorem not_mem_of_mem_split {xs part : List Char} (h : part ∈ split xs) : '/' ∉ part := by
  induction xs generalizing part with
  | nil =>
    rw [List.mem_singleton.mp h]
    exact List.not_mem_nil
  | cons c xs ih =>
    by_cases hc : c = '/'
    · rw [hc, split_slash, List.mem_cons] at h
      rcases h with rfl | h
      · exact List.not_mem_nil
      · exact ih h
    · obtain ⟨first, rest, hxs⟩ := exists_split xs
      rw [hxs] at ih
      rw [split_cons hc hxs, List.mem_cons] at h
      rcases h with rfl | h
      · rw [List.mem_cons, not_or]
        exact ⟨Ne.symm hc, ih List.mem_cons_self⟩
      · exact ih (List.mem_cons_of_mem _ h)

theorem isAbsolute_iff (path : String) :
    isAbsolute path = true ↔ ∃ cs, path.toList = '/' :: cs := by
  rw [isAbsolute, beq_iff_eq, List.head?_eq_some_iff]

theorem not_mem_of_mem_parts {path part : String} (h : part ∈ parts path) : '/' ∉ part.toList := by
  have hsplit : part ∈ (split path.toList).map String.ofList := by
    rw [parts] at h
    split at h
    · exact List.mem_of_mem_drop h
    · exact h
  obtain ⟨cs, hcs, rfl⟩ := List.mem_map.mp hsplit
  rw [String.toList_ofList]
  exact not_mem_of_mem_split hcs

/-- A text without a slash is one part. -/
theorem parts_of_not_mem {name : String} (h : '/' ∉ name.toList) :
    isAbsolute name = false ∧ parts name = [name] := by
  have habsolute : isAbsolute name = false := by
    rw [Bool.eq_false_iff, ne_eq, isAbsolute_iff]
    rintro ⟨cs, hcs⟩
    exact h (hcs ▸ List.mem_cons_self)
  refine ⟨habsolute, ?_⟩
  rw [parts, habsolute, split_of_not_mem h, if_neg Bool.false_ne_true, List.map_singleton,
    String.ofList_toList]

/-! ## Walking -/

/-- Where a walk along the parts of a path ends, names held innermost first. -/
def follow (names : List String) (path : String) : List String := (parts path).foldl step names

theorem resolve_eq_follow (here : List String) (path : String) :
    resolve here path = (follow (if isAbsolute path then [] else here.reverse) path).reverse := rfl

theorem step_void (names : List String) : step names "" = names := rfl

/-- The empty part before a leading slash makes no difference. -/
theorem follow_eq_foldl (names : List String) (path : String) :
    follow names path = ((split path.toList).map String.ofList).foldl step names := by
  rw [follow, parts]
  split
  · next h =>
    obtain ⟨cs, hcs⟩ := (isAbsolute_iff path).mp h
    rw [hcs, split_slash]
    rfl
  · rfl

theorem follow_append (names : List String) {path dir rest : String}
    (h : path.toList = dir.toList ++ '/' :: rest.toList) :
    follow names path = follow (follow names dir) rest := by
  rw [follow_eq_foldl, follow_eq_foldl, follow_eq_foldl, h, split_append_slash, List.map_append,
    List.foldl_append]

theorem follow_empty (names : List String) : follow names "" = names := rfl

theorem isAbsolute_append {dir : String} (hdir : dir ≠ "") (rest : String) :
    isAbsolute (dir ++ rest) = isAbsolute dir := by
  obtain ⟨c, cs, hcs⟩ := List.exists_cons_of_ne_nil (mt String.toList_eq_nil_iff.mp hdir)
  rw [isAbsolute, isAbsolute, String.toList_append, hcs, List.cons_append, List.head?_cons,
    List.head?_cons]

/-- A slash at the end of a directory leads nowhere. -/
theorem follow_join {dir path : String} (hdir : dir ≠ "") (h : isAbsolute path = false) :
    isAbsolute (join dir path) = isAbsolute dir ∧
      ∀ names, follow names (join dir path) = follow (follow names dir) path := by
  have hempty : dir.isEmpty = false := Bool.eq_false_iff.mpr (mt String.isEmpty_iff.mp hdir)
  rw [join, if_neg (Bool.eq_false_iff.mp h), hempty, Bool.false_or]
  split
  · next hslash =>
    refine ⟨isAbsolute_append hdir path, fun names => ?_⟩
    obtain ⟨cs, hcs⟩ := List.getLast?_eq_some_iff.mp (beq_iff_eq.mp hslash)
    have hstem : dir.toList = (String.ofList cs).toList ++ '/' :: "".toList := by
      rw [hcs, String.toList_ofList]
      rfl
    have hjoin : (dir ++ path).toList = (String.ofList cs).toList ++ '/' :: path.toList := by
      rw [String.toList_append, hcs, String.toList_ofList, List.append_assoc, List.singleton_append]
    rw [follow_append names hjoin, follow_append names hstem, follow_empty]
  · refine ⟨?_, fun names => follow_append names ?_⟩
    · rw [String.append_assoc, isAbsolute_append hdir]
    · rw [String.append_assoc, String.toList_append, String.toList_append]
      rfl

/-- A relative path is walked from the directory that it is joined to. -/
theorem resolve_join (here : List String) (dir : String) {path : String}
    (h : isAbsolute path = false) :
    resolve here (join dir path) = (follow (resolve here dir).reverse path).reverse := by
  by_cases hdir : dir = ""
  · have hjoin : join "" path = path := by
      rw [join, if_neg (Bool.eq_false_iff.mp h)]
      exact String.empty_append
    rw [hdir, hjoin, resolve_eq_follow, h]
    exact congrArg (fun names => (follow names path).reverse) (List.reverse_reverse _).symm
  · obtain ⟨habsolute, hfollow⟩ := follow_join hdir h
    rw [resolve_eq_follow, habsolute, hfollow, resolve_eq_follow, List.reverse_reverse]

/-- Joining to a directory is starting there. -/
theorem resolve_join_eq (here : List String) (dir path : String) :
    resolve here (join dir path) = resolve (resolve here dir) path := by
  cases habsolute : isAbsolute path with
  | true => rw [join, if_pos habsolute, resolve, resolve, habsolute, if_pos rfl, if_pos rfl]
  | false => rw [resolve_join here dir habsolute, resolve_eq_follow _ path, habsolute]; rfl

/-! ## Staying inside -/

/-- A path leads to a directory or below it, from wherever both are walked. -/
def Inside (dir path : String) : Prop := ∀ here, resolve here dir <+: resolve here path

/-- Whether a walk that starts some steps below a directory never leaves it. -/
def staysWithin : Nat → List String → Bool
  | _, [] => true
  | depth, part :: parts =>
    if isVoid part then staysWithin depth parts
    else if part == ".." then depth != 0 && staysWithin (depth - 1) parts
    else staysWithin (depth + 1) parts

/-- Whether a path never leaves the directory that it is joined to. -/
def stays (path : String) : Bool := !isAbsolute path && staysWithin 0 (parts path)

/-- What a part does to a walk: nothing, one step up or one step down. -/
theorem step_cases (part : String) :
    ((∀ names, step names part = names) ∧
        ∀ depth rest, staysWithin depth (part :: rest) = staysWithin depth rest) ∨
      ((∀ names, step names part = names.drop 1) ∧ part = ".." ∧
        ∀ depth rest, staysWithin depth (part :: rest) =
          (depth != 0 && staysWithin (depth - 1) rest)) ∨
      ((∀ names, step names part = part :: names) ∧ part ≠ ".." ∧
        ∀ depth rest, staysWithin depth (part :: rest) = staysWithin (depth + 1) rest) := by
  by_cases hvoid : isVoid part = true
  · exact .inl ⟨fun _ => if_pos hvoid, fun _ _ => if_pos hvoid⟩
  · by_cases hup : part = ".."
    · subst hup
      exact .inr (.inl ⟨fun _ => rfl, rfl, fun _ _ => rfl⟩)
    · have hne : ¬ (part == "..") = true := mt beq_iff_eq.mp hup
      exact .inr (.inr ⟨fun _ => (if_neg hvoid).trans (if_neg hne), hup,
        fun _ _ => (if_neg hvoid).trans (if_neg hne)⟩)

theorem staysWithin_of_not_mem {ps : List String} (h : ".." ∉ ps) (depth : Nat) :
    staysWithin depth ps = true := by
  induction ps generalizing depth with
  | nil => rfl
  | cons part ps ih =>
    rw [List.mem_cons, not_or] at h
    rcases step_cases part with ⟨-, hstays⟩ | ⟨-, hup, -⟩ | ⟨-, -, hstays⟩
    · rw [hstays, ih h.2]
    · exact absurd hup.symm h.1
    · rw [hstays, ih h.2]

/-- A walk that stays keeps what is above its start. -/
theorem exists_foldl_step (inner outer : List String) {ps : List String}
    (h : staysWithin inner.length ps = true) :
    ∃ inner', ps.foldl step (inner ++ outer) = inner' ++ outer := by
  induction ps generalizing inner with
  | nil => exact ⟨inner, rfl⟩
  | cons part ps ih =>
    rw [List.foldl_cons]
    rcases step_cases part with ⟨hstep, hstays⟩ | ⟨hstep, -, hstays⟩ | ⟨hstep, -, hstays⟩
    · rw [hstays] at h
      rw [hstep]
      exact ih inner h
    · rw [hstays, Bool.and_eq_true] at h
      rw [hstep]
      cases inner with
      | nil => cases h.1
      | cons name inner => exact ih inner h.2
    · rw [hstays] at h
      rw [hstep]
      exact ih (part :: inner) h

theorem not_mem_foldl_step {mark : String} {ps names : List String} (hnames : mark ∉ names)
    (hparts : mark ∉ ps) : mark ∉ ps.foldl step names := by
  induction ps generalizing names with
  | nil => exact hnames
  | cons part ps ih =>
    rw [List.mem_cons, not_or] at hparts
    rw [List.foldl_cons]
    refine ih ?_ hparts.2
    rcases step_cases part with ⟨hstep, -⟩ | ⟨hstep, -⟩ | ⟨hstep, -⟩
    · rwa [hstep]
    · rw [hstep]
      exact fun h => hnames (List.mem_of_mem_drop h)
    · rw [hstep, List.mem_cons, not_or]
      exact ⟨hparts.1, hnames⟩

/-- A walk that does not stay loses the directory that it started in, for good if the path does not
name it. -/
theorem not_mem_of_leaves {mark : String} {ps : List String} (inner : List String)
    {outer : List String} (h : staysWithin inner.length ps = false) (hparts : mark ∉ ps)
    (hinner : mark ∉ inner) (houter : mark ∉ outer) :
    mark ∉ ps.foldl step (inner ++ mark :: outer) := by
  induction ps generalizing inner with
  | nil => cases h
  | cons part ps ih =>
    rw [List.mem_cons, not_or] at hparts
    rw [List.foldl_cons]
    rcases step_cases part with ⟨hstep, hstays⟩ | ⟨hstep, -, hstays⟩ | ⟨hstep, -, hstays⟩
    · rw [hstays] at h
      rw [hstep]
      exact ih inner h hparts.2 hinner
    · rw [hstep]
      cases inner with
      | nil => exact not_mem_foldl_step houter hparts.2
      | cons name inner =>
        rw [hstays] at h
        rw [List.mem_cons, not_or] at hinner
        exact ih inner h hparts.2 hinner.2
    · rw [hstays] at h
      rw [hstep]
      refine ih (part :: inner) h hparts.2 ?_
      rw [List.mem_cons, not_or]
      exact ⟨hparts.1, hinner⟩

/-- The name that is a row of so many letters. -/
def row (n : Nat) : String := String.ofList (List.replicate (n + 1) 'x')

theorem exists_row_not_mem (names : List String) : ∃ n, row n ∉ names := by
  have hinjective : Function.Injective row := by
    intro n m h
    have hlength := congrArg (fun s => s.toList.length) h
    simpa [row] using hlength
  obtain ⟨_, ⟨n, rfl⟩, hn⟩ :=
    (Set.infinite_range_of_injective hinjective).exists_notMem_finset names.toFinset
  exact ⟨n, fun h => hn (List.mem_toFinset.mpr h)⟩

theorem resolve_row (n : Nat) : resolve [] ("/" ++ row n) = [row n] := by
  have hchars : (row n).toList = List.replicate (n + 1) 'x' := String.toList_ofList
  have hslash : '/' ∉ (row n).toList := by
    rw [hchars, List.mem_replicate]
    exact fun h => absurd h.2 (by decide)
  have hne : ∀ name : String, name.toList.head? ≠ some 'x' → row n ≠ name := by
    rintro _ hhead rfl
    exact hhead (hchars ▸ rfl)
  have hstep : step [] (row n) = [row n] := by
    rw [step, isVoid, beq_eq_false_iff_ne.mpr (hne "" (by decide)),
      beq_eq_false_iff_ne.mpr (hne "." (by decide)), beq_eq_false_iff_ne.mpr (hne ".." (by decide))]
    rfl
  have hpath : ("/" ++ row n).toList = "".toList ++ '/' :: (row n).toList := by
    rw [String.toList_append]
    rfl
  rw [resolve_eq_follow, (isAbsolute_iff _).mpr ⟨_, hpath⟩, if_pos rfl, follow_append [] hpath,
    follow_empty, follow, (parts_of_not_mem hslash).2, List.foldl_cons, List.foldl_nil, hstep]
  rfl

/-- A path leads out of some directory that it is joined to, unless it stays. -/
theorem inside_join_iff (path : String) :
    (∀ dir, Inside dir (join dir path)) ↔ stays path = true := by
  rw [stays, Bool.and_eq_true, Bool.not_eq_true']
  constructor
  · intro h
    obtain ⟨n, hn⟩ := exists_row_not_mem (parts path)
    have hmem : row n ∈ resolve [] (join ("/" ++ row n) path) :=
      (h ("/" ++ row n) []).subset (resolve_row n ▸ List.mem_singleton_self _)
    have habsolute : isAbsolute path = false := by
      by_contra habsolute
      rw [Bool.not_eq_false] at habsolute
      rw [join, if_pos habsolute, resolve, if_pos habsolute, List.mem_reverse] at hmem
      exact not_mem_foldl_step List.not_mem_nil hn hmem
    refine ⟨habsolute, ?_⟩
    by_contra hleaves
    rw [resolve_join [] _ habsolute, resolve_row, List.mem_reverse] at hmem
    exact not_mem_of_leaves [] (Bool.eq_false_iff.mpr hleaves) hn List.not_mem_nil
      List.not_mem_nil hmem
  · rintro ⟨habsolute, hstays⟩ dir here
    obtain ⟨inner, hinner⟩ := exists_foldl_step [] (resolve here dir).reverse hstays
    rw [resolve_join here dir habsolute, follow, ← List.nil_append (resolve here dir).reverse,
      hinner, List.reverse_append, List.reverse_reverse]
    exact List.prefix_append _ _

/-! ## Last names -/

theorem dropVoidEnd_subset (keep : Bool) (ps : List String) : dropVoidEnd keep ps ⊆ ps := by
  induction ps generalizing keep with
  | nil => exact List.Subset.refl _
  | cons part ps ih =>
    rw [dropVoidEnd]
    split
    · split
      · exact List.nil_subset _
      · exact List.cons_subset_cons _ (List.nil_subset _)
    · next rest _ => exact List.cons_subset_cons _ (ih false)

/-- The last name of a path is one part, and does not go up. -/
theorem stays_of_fileName? {path name : String} (h : fileName? path = some name) :
    stays name = true := by
  rw [fileName?] at h
  split at h
  · next last hlast =>
    split at h
    · cases h
    · next hdots =>
      obtain rfl := Option.some.inj h
      have hpart : last ∈ parts path :=
        dropVoidEnd_subset _ _ (List.mem_of_getLast? hlast)
      obtain ⟨habsolute, hparts⟩ := parts_of_not_mem (not_mem_of_mem_parts hpart)
      rw [stays, habsolute, hparts]
      refine staysWithin_of_not_mem (fun hup => hdots ?_) 0
      rw [← List.mem_singleton.mp hup]
      rfl
  · cases h

/-- Whether a path leads out of a directory and has no last name to cut it down to. -/
def isNameless (path : String) : Bool :=
  (isAbsolute path || goesUp path) && (fileName? path).isNone

/-! ## Normal paths -/

/-- How many steps a walk goes above its start, begun some steps below it. -/
def stepsAbove : Nat → List String → Nat
  | _, [] => 0
  | depth, part :: parts =>
    if isVoid part then stepsAbove depth parts
    else if part == ".." then
      if depth = 0 then stepsAbove 0 parts + 1 else stepsAbove (depth - 1) parts
    else stepsAbove (depth + 1) parts

/-- A path without the parts that say nothing and the steps that are taken back. -/
structure Normal where
  absolute : Bool
  /-- How many steps it goes up first; nothing is above the top. -/
  ups : Nat
  /-- The names that it then goes down through. -/
  names : List String
deriving DecidableEq

def normal (path : String) : Normal where
  absolute := isAbsolute path
  ups := if isAbsolute path then 0 else stepsAbove 0 (parts path)
  names := resolve [] path

theorem foldl_step_append (inner outer ps : List String) :
    ps.foldl step (inner ++ outer) =
      ps.foldl step inner ++ outer.drop (stepsAbove inner.length ps) := by
  induction ps generalizing inner outer with
  | nil => rfl
  | cons part ps ih =>
    rw [List.foldl_cons, List.foldl_cons, step, step, stepsAbove]
    split
    · exact ih inner outer
    · split
      · cases inner with
        | nil =>
          have hstart := ih [] (outer.drop 1)
          rw [List.drop_drop, Nat.add_comm] at hstart
          exact hstart
        | cons name inner => exact ih inner outer
      · exact ih (part :: inner) outer

/-- Where a path leads is said by its normal form. -/
theorem resolve_eq_normal (here : List String) (path : String) :
    resolve here path =
      (if (normal path).absolute then [] else here.rdrop (normal path).ups) ++
        (normal path).names := by
  cases habsolute : isAbsolute path with
  | true => simp only [normal, resolve, habsolute, if_true, List.nil_append]
  | false =>
    have hwalk := foldl_step_append [] here.reverse (parts path)
    rw [List.nil_append, List.length_nil] at hwalk
    simp only [normal, resolve, habsolute, if_false, Bool.false_eq_true, hwalk, List.reverse_append,
      List.rdrop_eq_reverse_drop_reverse, List.reverse_nil]

theorem stepsAbove_of_staysWithin {depth : Nat} {ps : List String}
    (h : staysWithin depth ps = true) : stepsAbove depth ps = 0 := by
  induction ps generalizing depth with
  | nil => rfl
  | cons part ps ih =>
    rw [staysWithin] at h
    rw [stepsAbove]
    split at h
    · next hvoid => rw [if_pos hvoid, ih h]
    · next hvoid =>
      rw [if_neg hvoid]
      split at h
      · next hup =>
        rw [Bool.and_eq_true, bne_iff_ne] at h
        rw [if_pos hup, if_neg h.1, ih h.2]
      · next hup => rw [if_neg hup, ih h]

/-- A path that stays only goes down. -/
theorem normal_of_stays {path : String} (h : stays path = true) :
    normal path = ⟨false, 0, resolve [] path⟩ := by
  rw [stays, Bool.and_eq_true, Bool.not_eq_true'] at h
  rw [normal, h.1, stepsAbove_of_staysWithin h.2]
  rfl

/-- Paths that stay and differ in their normal forms lead to different places. -/
theorem resolve_ne_of_stays {a b : String} (ha : stays a = true) (hb : stays b = true)
    (h : normal a ≠ normal b) (here : List String) : resolve here a ≠ resolve here b := by
  rw [normal_of_stays ha, normal_of_stays hb] at h
  rw [resolve_eq_normal here a, resolve_eq_normal here b, normal_of_stays ha, normal_of_stays hb]
  exact fun heq => h (congrArg (Normal.mk false 0) (List.append_cancel_left heq))

end Path
end Unweave
