import Unweave.Json.Decode
import Unweave.Json.Encode
import Unweave.Proofs.JsonText

/-!
# Decoders that undo encoders

`Gives dec j x` says that the decoder makes `x` of `j` wherever `j` has the levels it needs.  The
decoders of the format are put together from a few parts, and each part gives back what the encoder
of the same name wrote: a list its items, a record its fields (`Gives.record`), a tagged value its
tag and the record that is left (`tagged_obj`).

A record is followed by looking its fields up, and a field that is found is no deeper than the
record, so depths are compared once for a record and never for a field (`Record.Within`).
-/

namespace Unweave
namespace Json

/-! ## Depth -/

theorem depth_le_depthItems {j : Json} : ∀ {js : List Json}, j ∈ js → j.depth ≤ depthItems js
  | k :: js, h => by
    rw [depthItems]
    rcases List.mem_cons.1 h with rfl | h
    · exact Nat.le_max_left ..
    · exact Nat.le_trans (depth_le_depthItems h) (Nat.le_max_right ..)

theorem depth_le_depthFields {name : String} {j : Json} :
    ∀ {fs : List (String × Json)}, fs.lookup name = some j → j.depth ≤ depthFields fs
  | (k, i) :: fs, h => by
    rw [depthFields]
    rw [List.lookup_cons] at h
    split at h
    · cases h
      exact Nat.le_max_left ..
    · exact Nat.le_trans (depth_le_depthFields h) (Nat.le_max_right ..)

/-! ## Fields that are written -/

/-- The value of a list that is left out when it is empty. -/
def unlessEmpty (items : List Json) : Option Json :=
  if items.isEmpty then none else some (arr items)

theorem listUnlessEmpty_eq (name : String) (items : List Json) :
    listUnlessEmpty name items = fieldIfSome name (unlessEmpty items) := by
  cases items <;> rfl

attribute [simp] List.lookup_append

section Lookup

variable (name key : String)

@[simp]
theorem lookup_field (j : Json) :
    (field name j).lookup key = if key = name then some j else none := by
  by_cases h : key = name
  · simp [field, h]
  · rw [field, List.lookup_cons, beq_eq_false_iff_ne.2 h, if_neg h]
    rfl

@[simp]
theorem lookup_fieldIfSome (o : Option Json) :
    (fieldIfSome name o).lookup key = if key = name then o else none := by
  cases o with
  | none => simp [fieldIfSome]
  | some j => exact lookup_field name key j

@[simp]
theorem lookup_listUnlessEmpty (items : List Json) :
    (listUnlessEmpty name items).lookup key = if key = name then unlessEmpty items else none := by
  rw [listUnlessEmpty_eq, lookup_fieldIfSome]

end Lookup

/-! ## Plain values -/

@[simp]
theorem plain_ofWord (w : UInt32) : Plain (ofWord w) := by
  have hw := w.toNat_lt
  rw [ofWord, ofNat, Plain, Range.wordBound, Int.ofNat_eq_natCast, Int.ofNat_eq_natCast]
  omega

@[simp]
theorem plainItems_iff (js : List Json) : PlainItems js ↔ ∀ j ∈ js, Plain j := by
  induction js with
  | nil => simp
  | cons j js ih => simp [ih]

@[simp]
theorem plain_strings (ss : List String) : Plain (strings ss) := by simp [strings]

@[simp]
theorem plain_orNull (o : Option Json) : Plain (orNull o) ↔ ∀ j ∈ o, Plain j := by
  cases o <;> simp [orNull]

@[simp]
theorem plainFields_append (fs gs : List (String × Json)) :
    PlainFields (fs ++ gs) ↔ PlainFields fs ∧ PlainFields gs := by
  induction fs with
  | nil => simp
  | cons f fs ih => simp [ih, and_assoc]

@[simp]
theorem plainFields_field (name : String) (j : Json) :
    PlainFields (field name j) ↔ Plain j := by
  simp [field]

@[simp]
theorem plainFields_fieldIfSome (name : String) (o : Option Json) :
    PlainFields (fieldIfSome name o) ↔ ∀ j ∈ o, Plain j := by
  cases o <;> simp [fieldIfSome]

@[simp]
theorem plainFields_listUnlessEmpty (name : String) (js : List Json) :
    PlainFields (listUnlessEmpty name js) ↔ ∀ j ∈ js, Plain j := by
  cases js with
  | nil => simp [listUnlessEmpty]
  | cons j js => simp [listUnlessEmpty]

mutual

theorem isDefined_of_plain : ∀ {j : Json}, Plain j → j.isDefined = true
  | arr js, h => by
    rw [Plain] at h
    rw [isDefined, allDefined_of_plain h]
  | obj fs, h => by
    rw [Plain] at h
    rw [isDefined, fieldsDefined_of_plain h]
  | null, _ | bool _, _ | int _, _ | str _, _ => by simp [isDefined]

theorem allDefined_of_plain : ∀ {js : List Json}, PlainItems js → allDefined js = true
  | [], _ => rfl
  | j :: js, h => by
    rw [PlainItems] at h
    rw [allDefined, isDefined_of_plain h.1, allDefined_of_plain h.2, Bool.and_self]

theorem fieldsDefined_of_plain :
    ∀ {fs : List (String × Json)}, PlainFields fs → fieldsDefined fs = true
  | [], _ => rfl
  | (_, j) :: fs, h => by
    rw [PlainFields] at h
    rw [fieldsDefined, isDefined_of_plain h.1, fieldsDefined_of_plain h.2, Bool.and_self]

end

/-! ## Decoding -/

/-- The decoder makes `x` of `j` wherever as many levels may be opened as `j` has. -/
def Gives {α : Type} (dec : Decoder α) (j : Json) (x : α) : Prop :=
  ∀ scope, j.depth ≤ scope.level → dec scope j = some x

namespace Gives

theorem text (s : String) : Gives Json.text (str s) s := fun _ _ => rfl

theorem flag (b : Bool) : Gives Json.flag (bool b) b := fun _ _ => rfl

theorem word (w : UInt32) : Gives Json.word (ofWord w) w := by
  intro scope _
  have hw : (0 : Int) ≤ Int.ofNat w.toNat ∧ Int.ofNat w.toNat < Int.ofNat 4294967296 := by
    have := w.toNat_lt
    rw [Int.ofNat_eq_natCast, Int.ofNat_eq_natCast]
    omega
  rw [Json.word, natBelow, ofWord, ofNat, intIn, if_pos hw]
  simp

variable {α β : Type} {dec : Decoder α} {enc : α → Json}

theorem choice {names : List (String × α)} {s : String} {x : α} (h : names.lookup s = some x) :
    Gives (Json.choice names) (str s) x := fun _ _ => by rw [Json.choice, h]

theorem map {j : Json} {x : α} (h : Gives dec j x) (f : α → β) :
    Gives (fun scope j => (dec scope j).map f) j (f x) := by
  intro scope hdepth
  show (dec scope j).map f = some (f x)
  rw [h scope hdepth, Option.map_some]

theorem list (xs : List α) (h : ∀ x ∈ xs, Gives dec (enc x) x) :
    Gives (Json.list dec) (arr (xs.map enc)) xs := by
  rintro ⟨level, whole⟩ hdepth
  rw [depth] at hdepth
  obtain ⟨level, rfl⟩ := Nat.exists_eq_add_of_le' (Nat.le_of_add_left_le hdepth)
  have hitems : ∀ x ∈ xs, dec ⟨level, whole⟩ (enc x) = some x := fun x hx =>
    h x hx _ (Nat.le_trans (depth_le_depthItems (List.mem_map_of_mem hx))
      (Nat.le_of_succ_le_succ hdepth))
  rw [Json.list]
  clear hdepth h
  induction xs with
  | nil => rfl
  | cons x xs ih =>
    rw [List.map_cons, List.mapM_cons, hitems x List.mem_cons_self,
      ih fun y hy => hitems y (List.mem_cons_of_mem x hy)]
    rfl

theorem nullable {j : Json} {x : α} (h : Gives dec j x) (hnull : j ≠ null) :
    Gives (Json.nullable dec) j (some x) := by
  intro scope hdepth
  have hj : Json.nullable dec scope j = (dec scope j).map some := by
    cases j <;> first | rfl | exact absurd rfl hnull
  rw [hj, h scope hdepth, Option.map_some]

end Gives

/-! ## Records -/

/-- The fields are some of the named ones, in the order of the names. -/
def Fits (names : List String) (fields : List (String × Json)) : Prop :=
  (fields.map (·.1)).Sublist names

namespace Fits

variable {names names' : List String} {fields fields' : List (String × Json)}

theorem field (name : String) (j : Json) : Fits [name] (field name j) := List.Sublist.refl _

theorem ifSome (name : String) (o : Option Json) : Fits [name] (fieldIfSome name o) := by
  cases o with
  | none => exact List.nil_sublist _
  | some j => exact field name j

theorem listed (name : String) (items : List Json) : Fits [name] (listUnlessEmpty name items) := by
  rw [listUnlessEmpty_eq]
  exact ifSome name _

theorem append (h : Fits names fields) (h' : Fits names' fields') :
    Fits (names ++ names') (fields ++ fields') := by
  rw [Fits, List.map_append]
  exact List.Sublist.append h h'

theorem mem {f : String × Json} (h : Fits names fields) (hf : f ∈ fields) : f.1 ∈ names :=
  h.subset (List.mem_map_of_mem hf)

theorem lookup_eq_none {name : String} (h : Fits names fields) (hname : name ∉ names) :
    fields.lookup name = none := by
  refine List.lookup_eq_none_iff.2 fun f hf => ?_
  have hne : name ≠ f.1 := fun e => hname (by rw [e]; exact h.mem hf)
  simpa using hne

end Fits

/-- A record whose fields are no deeper than it may open. -/
def Record.Within (r : Record) : Prop := depthFields r.fields ≤ r.scope.level

/-- A record is decoded from its own fields. -/
theorem record_bind {α : Type} {names : List String} {fields : List (String × Json)}
    {body : Record → Option α} {x : α} {level : Nat} {whole : Bool} (hnames : names.Nodup)
    (hfits : Fits names fields) (hdepth : (obj fields).depth ≤ level + 1)
    (hbody : Record.Within ⟨⟨level, whole⟩, false, fields⟩ →
      body ⟨⟨level, whole⟩, false, fields⟩ = some x) :
    record names ⟨level + 1, whole⟩ (obj fields) >>= body = some x := by
  have hknown : (fields.filter fun f => names.contains f.1) = fields :=
    List.filter_eq_self.2 fun f hf => List.contains_iff_mem.2 (hfits.mem hf)
  rw [record]
  simp only [hknown]
  rw [if_pos (List.Nodup.sublist hfits hnames)]
  rw [depth] at hdepth
  exact hbody (Nat.le_of_succ_le_succ hdepth)

theorem Gives.record {α : Type} {names : List String} {fields : List (String × Json)}
    {body : Record → Option α} {x : α} (hnames : names.Nodup) (hfits : Fits names fields)
    (hbody : ∀ scope, Record.Within ⟨scope, false, fields⟩ → body ⟨scope, false, fields⟩ = some x) :
    Gives (fun scope j => Json.record names scope j >>= body) (obj fields) x := by
  rintro ⟨level, whole⟩ hdepth
  have hlevel : 1 ≤ level := by
    rw [depth] at hdepth
    exact Nat.le_of_add_left_le hdepth
  obtain ⟨level, rfl⟩ := Nat.exists_eq_add_of_le' hlevel
  exact record_bind hnames hfits hdepth (hbody _)

namespace Record.Within

variable {α : Type} {dec : Decoder α} {enc : α → Json} {r : Record} (hr : r.Within) (name : String)
include hr

theorem found {j : Json} {x : α} (h : Gives dec j x) (hj : r.fields.lookup name = some j) :
    dec r.scope j = some x :=
  h _ (Nat.le_trans (depth_le_depthFields hj) hr)

theorem required {j : Json} {x : α} (h : Gives dec j x) (hj : r.fields.lookup name = some j) :
    r.required name dec = some x := by
  rw [Record.required, hj]
  exact hr.found name h hj

theorem default {j : Json} {x value : α} (h : Gives dec j x)
    (hj : r.fields.lookup name = some j) : r.default name value dec = some x := by
  rw [Record.default, hj]
  exact hr.found name h hj

theorem defaultList (xs : List α) (h : ∀ x ∈ xs, Gives dec (enc x) x)
    (hj : r.fields.lookup name = unlessEmpty (xs.map enc)) :
    r.default name [] (Json.list dec) = some xs := by
  cases xs with
  | nil =>
    rw [Record.default, hj]
    rfl
  | cons x xs => exact hr.default name (.list _ h) hj

theorem optional (o : Option α) (h : ∀ x, Gives dec (enc x) x) (hnull : ∀ x, enc x ≠ null)
    (hj : r.fields.lookup name = o.map enc) : r.optional name dec = some o := by
  cases o with
  | none =>
    rw [Record.optional, Record.default, hj]
    rfl
  | some x => exact hr.default name ((h x).nullable (hnull x)) hj

theorem nullableField (o : Option α) (h : ∀ x, Gives dec (enc x) x) (hnull : ∀ x, enc x ≠ null)
    (hj : r.fields.lookup name = some (orNull (o.map enc))) :
    r.nullableField name dec = some o := by
  rw [Record.nullableField, hj]
  cases o with
  | none => rfl
  | some x => exact hr.found name ((h x).nullable (hnull x)) hj

end Record.Within

/-- Decoding the items of a list only looks one level down. -/
theorem Record.default_list_congr {α : Type} {item item' : Decoder α} {level : Nat} {whole : Bool}
    (h : item ⟨level, whole⟩ = item' ⟨level, whole⟩) (listed : Bool)
    (fields : List (String × Json)) (name : String) (value : List α) :
    Record.default ⟨⟨level + 1, whole⟩, listed, fields⟩ name value (list item) =
      Record.default ⟨⟨level + 1, whole⟩, listed, fields⟩ name value (list item') := by
  have hlist : ∀ j, list item ⟨level + 1, whole⟩ j = list item' ⟨level + 1, whole⟩ j := by
    intro j
    cases j <;> simp only [list, h]
  simp only [Record.default, hlist]

/-! ## Tagged values -/

/-- The tag is found among the fields, and the others are left. -/
theorem tagged_obj {tag t : String} {tags names : List String} {fields : List (String × Json)}
    {scope : Scope} (ht : t ∈ tags) (htag : tag ∉ names) (hfits : Fits names fields)
    (hplain : PlainFields fields) (hdepth : (obj ((tag, str t) :: fields)).depth ≤ scope.level) :
    tagged tag tags scope (obj ((tag, str t) :: fields)) = some (t, obj fields) := by
  have hne : ∀ f ∈ fields, f.1 ≠ tag := fun f hf hft => htag (hft ▸ hfits.mem hf)
  have hdefined : (obj ((tag, str t) :: fields)).isDefined = true :=
    isDefined_of_plain (by simpa using hplain)
  have hown : ((tag, str t) :: fields).filter (·.1 == tag) = [(tag, str t)] := by
    simpa using hne
  have hrest : ((tag, str t) :: fields).filter (·.1 != tag) = fields := by
    simpa using hne
  rw [tagged, if_pos (by rw [decide_eq_true hdepth, hdefined]; rfl)]
  simp only [hown, hrest]
  rw [tagName, if_pos (List.contains_iff_mem.2 ht)]
  rfl

theorem tagged_bind {α : Type} {tag t : String} {tags names : List String}
    {fields : List (String × Json)} {scope : Scope} {next : String × Json → Option α} {x : α}
    (ht : t ∈ tags) (htag : tag ∉ names) (hfits : Fits names fields) (hplain : PlainFields fields)
    (hdepth : (obj ((tag, str t) :: fields)).depth ≤ scope.level)
    (hnext : (obj fields).depth ≤ scope.level → next (t, obj fields) = some x) :
    tagged tag tags scope (obj ((tag, str t) :: fields)) >>= next = some x := by
  have hle : (obj fields).depth ≤ scope.level := by
    simp only [depth, depthFields] at hdepth ⊢
    omega
  rw [tagged_obj ht htag hfits hplain hdepth]
  exact hnext hle

end Json
end Unweave
