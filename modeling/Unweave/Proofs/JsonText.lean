import Mathlib.Data.List.TakeWhile
import Unweave.Json.Reader
import Unweave.Json.Writer

/-!
# What is written can be read

The reader gives back the value that either written form spells (`parse?_compact`,
`parse?_pretty`), if the value is plain: it has no numbers but natural ones of sixty-four bits, and
every part of it denotes something.

The two forms differ in where they have blanks.  `spaced` writes a value with the blanks of any
`Spacing`, and the reader is followed through that text once.
-/

namespace Unweave
namespace Json

mutual

/-- A value that its written form determines. -/
def Plain : Json → Prop
  | int i => 0 ≤ i ∧ i < Int.ofNat Range.wordBound
  | arr items => PlainItems items
  | obj fields => PlainFields fields
  | decimal _ => False
  | undefined => False
  | _ => True

def PlainItems : List Json → Prop
  | [] => True
  | j :: js => Plain j ∧ PlainItems js

def PlainFields : List (String × Json) → Prop
  | [] => True
  | (_, j) :: fs => Plain j ∧ PlainFields fs

end

attribute [simp] Plain PlainItems PlainFields

namespace Reader

/-! ## Blanks -/

def Blank (cs : List Char) : Prop := ∀ c ∈ cs, isSpace c = true

theorem skip_blank {bs : List Char} (hbs : Blank bs) (cs : List Char) :
    skip (bs ++ cs) = skip cs :=
  List.dropWhile_append_of_pos hbs

theorem skip_cons {c : Char} (h : isSpace c = false) (cs : List Char) :
    skip (c :: cs) = c :: cs :=
  List.dropWhile_cons_of_neg (by rw [h]; exact Bool.false_ne_true)

theorem value_blank {bs : List Char} (hbs : Blank bs) (n : Nat) (cs : List Char) :
    value n (bs ++ cs) = value n cs := by
  cases n with
  | zero => rw [value, value]
  | succ n => rw [value, value, skip_blank hbs]

theorem fields_blank {bs : List Char} (hbs : Blank bs) (n : Nat) (cs : List Char) :
    fields n (bs ++ cs) = fields n cs := by
  cases n with
  | zero => rw [fields, fields]
  | succ n => rw [fields, fields, skip_blank hbs]

/-! ## Strings -/

theorem hexValue_hexDigit : ∀ n < 16, hexValue (hexDigit n) = some n := by decide

/-- A code below the surrogates is a character. -/
theorem joined_code {n : Nat} (h : n < 0x20) (ps : List Piece) :
    joined (.code n :: ps) = (joined ps).map (Char.ofNat n :: ·) := by
  have hhigh : isHigh n = false := by
    rw [isHigh, decide_eq_false (by omega), Bool.false_and]
  have hlow : isLow n = false := by
    rw [isLow, decide_eq_false (by omega), Bool.false_and]
  rcases ps with _ | ⟨_ | l, ps⟩
  · simp only [joined, hhigh, hlow, Bool.or_self, Bool.false_eq_true, if_false]
  · simp only [joined, hhigh, hlow, Bool.or_self, Bool.false_eq_true, if_false]
  · simp only [joined, hhigh, hlow, Bool.false_eq_true, if_false]

theorem hexCode_control {n : Nat} (h : n < 0x20) :
    hexCode '0' '0' (hexDigit (n / 16)) (hexDigit (n % 16)) = some n := by
  have hzero : hexValue '0' = some 0 := by decide
  have hhigh := hexValue_hexDigit (n / 16) (by omega)
  have hlow := hexValue_hexDigit (n % 16) (by omega)
  have hsum : ((0 * 16 + 0) * 16 + n / 16) * 16 + n % 16 = n := by omega
  rw [hexCode, hzero, hhigh, hlow]
  exact congrArg some hsum

/-- An escaped character is read as one piece, which stands for it. -/
theorem pieces_escape (c : Char) (cs : List Char) :
    ∃ p, (pieces (escape c ++ cs) = (pieces cs).map fun x => (p :: x.1, x.2)) ∧
      ∀ ps, joined (p :: ps) = (joined ps).map (c :: ·) := by
  have hplain : ∀ e d : Char, e ≠ 'u' → plainEscape e = some d →
      pieces ('\\' :: e :: cs) = (pieces cs).map fun x => (.char d :: x.1, x.2) := by
    intro e d hu he
    rw [pieces.eq_4 _ _ fun _ _ _ _ _ h _ => hu h, he]
    cases pieces cs <;> rfl
  unfold escape
  split
  · next h => exact ⟨.char c, hplain '"' c (by decide) (by rw [h]; rfl), fun _ => rfl⟩
  split
  · next h => exact ⟨.char c, hplain '\\' c (by decide) (by rw [h]; rfl), fun _ => rfl⟩
  split
  · next h => exact ⟨.char c, hplain 'b' c (by decide) (by rw [h]; rfl), fun _ => rfl⟩
  split
  · next h => exact ⟨.char c, hplain 'f' c (by decide) (by rw [h]; rfl), fun _ => rfl⟩
  split
  · next h => exact ⟨.char c, hplain 'n' c (by decide) (by rw [h]; rfl), fun _ => rfl⟩
  split
  · next h => exact ⟨.char c, hplain 'r' c (by decide) (by rw [h]; rfl), fun _ => rfl⟩
  split
  · next h => exact ⟨.char c, hplain 't' c (by decide) (by rw [h]; rfl), fun _ => rfl⟩
  split
  · next h =>
    refine ⟨.code c.toNat, ?_, fun ps => ?_⟩
    · show pieces ('\\' :: 'u' :: '0' :: '0' :: hexDigit (c.toNat / 16) ::
        hexDigit (c.toNat % 16) :: cs) = _
      rw [pieces, hexCode_control h]
      cases pieces cs <;> rfl
    · rw [joined_code h, Char.ofNat_toNat]
  · next hquote hback _ _ _ _ _ hcontrol =>
    refine ⟨.char c, ?_, fun _ => rfl⟩
    have hself : (decide (c.toNat < 0x20) || c == '\\') = false := by
      rw [decide_eq_false hcontrol, Bool.false_or, beq_eq_false_iff_ne]
      exact hback
    show pieces (c :: cs) = _
    rw [pieces.eq_5 c cs hquote (fun _ _ _ _ _ h _ => hback h) (fun _ _ h _ => hback h), hself]
    cases pieces cs <;> rfl

/-- A quoted text is read back. -/
theorem text_quoted (s : String) (rest : List Char) :
    text (s.toList.flatMap escape ++ '"' :: rest) = some (some s, rest) := by
  have hpieces : ∀ cs : List Char, ∃ ps,
      pieces (cs.flatMap escape ++ '"' :: rest) = some (ps, rest) ∧ joined ps = some cs := by
    intro cs
    induction cs with
    | nil => exact ⟨[], rfl, rfl⟩
    | cons c cs ih =>
      obtain ⟨ps, hps, hjoined⟩ := ih
      obtain ⟨p, hp, hc⟩ := pieces_escape c (cs.flatMap escape ++ '"' :: rest)
      refine ⟨p :: ps, ?_, ?_⟩
      · rw [List.flatMap_cons, List.append_assoc, hp, hps]
        rfl
      · rw [hc, hjoined]
        rfl
  obtain ⟨ps, hps, hjoined⟩ := hpieces s.toList
  rw [text, hps]
  show some ((joined ps).map String.ofList, rest) = _
  rw [hjoined, Option.map_some, String.ofList_toList]

/-! ## Numbers -/

/-- The text does not go on with a number. -/
def Ends : List Char → Prop
  | [] => True
  | c :: _ => isDigit c = false ∧ c ≠ '.' ∧ c ≠ 'e' ∧ c ≠ 'E'

theorem isDigit_toDigits {n : Nat} {c : Char} (h : c ∈ Nat.toDigits 10 n) : isDigit c = true :=
  Nat.isDigit_of_mem_toDigits (by decide) (by decide) h

theorem digitsValue_toDigits (n : Nat) : digitsValue (Nat.toDigits 10 n) = n :=
  Nat.ofDigitChars_toDigits (by decide) (by decide)

/-- Only zero begins with the digit zero. -/
theorem toDigits_eq_cons {n : Nat} (h : 0 < n) :
    ∃ c cs, Nat.toDigits 10 n = c :: cs ∧ c ≠ '0' := by
  induction n using Nat.strongRecOn with
  | ind n ih =>
    by_cases hsmall : n < 10
    · refine ⟨n.digitChar, [], Nat.toDigits_of_lt_base hsmall, ?_⟩
      have hdigit : ∀ m < 10, 0 < m → m.digitChar ≠ '0' := by decide
      exact hdigit n hsmall h
    · obtain ⟨c, cs, hcs, hc⟩ := ih (n / 10) (by omega) (by omega)
      refine ⟨c, cs ++ [(n % 10).digitChar], ?_, hc⟩
      rw [Nat.toDigits_of_base_le (by decide) (by omega), hcs, List.cons_append]

theorem toDigits_eq_digit_cons (n : Nat) :
    ∃ c cs, Nat.toDigits 10 n = c :: cs ∧ isDigit c = true := by
  have hne : Nat.toDigits 10 n ≠ [] := Nat.toDigits_ne_nil
  obtain ⟨c, cs, hcs⟩ := List.exists_cons_of_ne_nil hne
  exact ⟨c, cs, hcs, isDigit_toDigits (hcs ▸ List.mem_cons_self)⟩

theorem atom_ofNat (n : Nat) : atom (int (n : Int)) = Nat.toDigits 10 n := by
  rw [atom, digits, if_neg (Int.not_lt.mpr (Int.natCast_nonneg n)), Int.natAbs_natCast]

theorem takeWhile_digits {ds rest : List Char} (hds : ∀ c ∈ ds, isDigit c = true)
    (hrest : Ends rest) : (ds ++ rest).takeWhile isDigit = ds := by
  rw [List.takeWhile_append_of_pos hds]
  cases rest with
  | nil => exact List.append_nil ds
  | cons c cs =>
    rw [List.takeWhile_cons_of_neg (by rw [hrest.1]; exact Bool.false_ne_true), List.append_nil]

theorem dropWhile_digits {ds rest : List Char} (hds : ∀ c ∈ ds, isDigit c = true)
    (hrest : Ends rest) : (ds ++ rest).dropWhile isDigit = rest := by
  rw [List.dropWhile_append_of_pos hds]
  cases rest with
  | nil => rfl
  | cons c cs => exact List.dropWhile_cons_of_neg (by rw [hrest.1]; exact Bool.false_ne_true)

theorem wholePart_toDigits (n : Nat) {rest : List Char} (hrest : Ends rest) :
    wholePart (Nat.toDigits 10 n ++ rest) = some (Nat.toDigits 10 n, rest) := by
  rcases Nat.eq_zero_or_pos n with rfl | hpos
  · rfl
  · have hds : ∀ c ∈ Nat.toDigits 10 n, isDigit c = true := fun _ => isDigit_toDigits
    obtain ⟨c, cs, hcs, hc⟩ := toDigits_eq_cons hpos
    have hcase : wholePart (Nat.toDigits 10 n ++ rest) =
        (let ds := (Nat.toDigits 10 n ++ rest).takeWhile isDigit
        if ds.isEmpty then none else some (ds, (Nat.toDigits 10 n ++ rest).dropWhile isDigit)) := by
      rw [hcs, List.cons_append]
      exact wholePart.eq_2 _ fun _ h => hc (List.cons.inj h).1
    rw [hcase, takeWhile_digits hds hrest, dropWhile_digits hds hrest, hcs]
    rfl

theorem fractionPart_ends {rest : List Char} (h : Ends rest) :
    fractionPart rest = some (none, rest) := by
  cases rest with
  | nil => rfl
  | cons c cs => exact fractionPart.eq_2 _ fun _ hc => h.2.1 (List.cons.inj hc).1

theorem exponentPart_ends {rest : List Char} (h : Ends rest) :
    exponentPart rest = some (none, rest) := by
  cases rest with
  | nil => rfl
  | cons c cs =>
    have hlow : (c == 'e') = false := beq_eq_false_iff_ne.mpr h.2.2.1
    have hhigh : (c == 'E') = false := beq_eq_false_iff_ne.mpr h.2.2.2
    rw [exponentPart, hlow, hhigh]
    rfl

/-- Reading digits never makes the number smaller. -/
theorem le_foldl_digits (ds : List Char) (n : Nat) :
    n ≤ ds.foldl (fun n d => 10 * n + (d.toNat - 48)) n := by
  induction ds generalizing n with
  | nil => exact Nat.le_refl n
  | cons d ds ih =>
    have hrest := ih (10 * n + (d.toNat - 48))
    rw [List.foldl_cons]
    omega

theorem whole_of_lt (ds : List Char) (s : Range.Scaled)
    (h : ds.foldl (fun n d => 10 * n + (d.toNat - 48)) s.digits < Range.wordBound) :
    (s.whole ds).exponent = s.exponent := by
  induction ds generalizing s with
  | nil => rfl
  | cons d ds ih =>
    have hle := le_foldl_digits ds (10 * s.digits + (d.toNat - 48))
    have hlt : 10 * s.digits + Range.digit d < Range.wordBound := Nat.lt_of_le_of_lt hle h
    rw [Range.Scaled.whole, if_pos hlt]
    exact ih { s with digits := 10 * s.digits + Range.digit d } h

/-- Numbers of sixty-four bits are in range. -/
theorem isBeyond_toDigits {n : Nat} (h : n < Range.wordBound) :
    Range.isBeyond (Nat.toDigits 10 n) [] 0 = false := by
  have hvalue : (Nat.toDigits 10 n).foldl (fun n d => 10 * n + (d.toNat - 48)) 0 <
      Range.wordBound := by
    show digitsValue (Nat.toDigits 10 n) < Range.wordBound
    rw [digitsValue_toDigits]
    exact h
  have hexponent : (({} : Range.Scaled).whole (Nat.toDigits 10 n)).exponent = 0 :=
    whole_of_lt _ {} hvalue
  show Range.Scaled.isBeyond { ({} : Range.Scaled).whole (Nat.toDigits 10 n) with
    exponent := (({} : Range.Scaled).whole (Nat.toDigits 10 n)).exponent + 0 } = false
  rw [hexponent, Range.Scaled.isBeyond, decide_eq_false (by decide : ¬ (0 : Int) + 0 > 0),
    Bool.and_false, Bool.false_and]

theorem sign_toDigits (n : Nat) (rest : List Char) :
    sign (Nat.toDigits 10 n ++ rest) = (false, Nat.toDigits 10 n ++ rest) := by
  refine sign.eq_2 _ fun cs h => ?_
  obtain ⟨c, ds, hds, hc⟩ := toDigits_eq_digit_cons n
  rw [hds, List.cons_append] at h
  rw [(List.cons.inj h).1] at hc
  exact absurd hc (by decide)

theorem number_toDigits {n : Nat} (h : n < Range.wordBound) {rest : List Char}
    (hrest : Ends rest) :
    number (Nat.toDigits 10 n ++ rest) = some (int (Int.ofNat n), rest) := by
  have hliteral : literal (Nat.toDigits 10 n ++ rest) =
      some (⟨false, Nat.toDigits 10 n, none, none⟩, rest) := by
    rw [literal, sign_toDigits]
    simp only [wholePart_toDigits n hrest, fractionPart_ends hrest, exponentPart_ends hrest,
      Option.bind_eq_bind, Option.bind_some]
    rfl
  have hvalue : ∀ source,
      Literal.value ⟨false, Nat.toDigits 10 n, none, none⟩ source = int (Int.ofNat n) := by
    intro source
    show (if Range.isBeyond (Nat.toDigits 10 n) [] 0 = true then undefined else
      int (Int.ofNat (digitsValue (Nat.toDigits 10 n)))) = _
    rw [isBeyond_toDigits h, digitsValue_toDigits, if_neg Bool.false_ne_true]
  rw [number, hliteral]
  exact congrArg (fun j => some (j, rest)) (hvalue _)

/-! ## Steps of the reader -/

theorem ends_blank {bs cs : List Char} (hbs : Blank bs) (hcs : Ends cs) : Ends (bs ++ cs) := by
  cases bs with
  | nil => exact hcs
  | cons b bs =>
    have hb : isSpace b = true := hbs b List.mem_cons_self
    simp only [isSpace, Bool.or_eq_true, beq_iff_eq] at hb
    rcases hb with ((rfl | rfl) | rfl) | rfl <;> exact ⟨by decide, by decide, by decide, by decide⟩

theorem isSpace_of_isDigit {c : Char} (h : isDigit c = true) : isSpace c = false := by
  rw [Bool.eq_false_iff]
  intro hspace
  simp only [isSpace, Bool.or_eq_true, beq_iff_eq] at hspace
  rcases hspace with ((rfl | rfl) | rfl) | rfl <;> exact absurd h (by decide)

theorem value_digit {c : Char} (hc : isDigit c = true) (n : Nat) (cs : List Char) :
    value (n + 1) (c :: cs) = number (c :: cs) := by
  have hne : ∀ d, isDigit d = false → c ≠ d := by
    rintro d hd rfl
    rw [hc] at hd
    cases hd
  have hkeyword : keyword (c :: cs) = none := by
    refine keyword.eq_4 _ ?_ ?_ ?_
    · exact fun _ h => hne 'n' (by decide) (List.cons.inj h).1
    · exact fun _ h => hne 't' (by decide) (List.cons.inj h).1
    · exact fun _ h => hne 'f' (by decide) (List.cons.inj h).1
  rw [value, skip_cons (isSpace_of_isDigit hc)]
  split
  · next h => exact absurd (List.cons.inj h).1 (hne '"' (by decide))
  · next h => exact absurd (List.cons.inj h).1 (hne '[' (by decide))
  · next h => exact absurd (List.cons.inj h).1 (hne '{' (by decide))
  · rw [hkeyword]

theorem value_quoted (s : String) (n : Nat) (rest : List Char) :
    value (n + 1) (quoted s ++ rest) = some (str s, rest) := by
  have hskip : skip (quoted s ++ rest) = '"' :: (s.toList.flatMap escape ++ '"' :: rest) := by
    rw [quoted, List.cons_append, List.append_assoc]
    exact skip_cons (by decide) _
  rw [value, hskip]
  show (text (s.toList.flatMap escape ++ '"' :: rest)).map _ = _
  rw [text_quoted]
  rfl

/-- Values without parts are read back. -/
theorem value_atom {j : Json} (hj : Plain j) (hatom : ∀ js fs, j ≠ arr js ∧ j ≠ obj fs) (n : Nat)
    {rest : List Char} (hrest : Ends rest) : value (n + 1) (atom j ++ rest) = some (j, rest) := by
  cases j with
  | null => rfl
  | bool b => cases b <;> rfl
  | int i =>
    obtain ⟨hpos, hlt⟩ := hj
    obtain ⟨m, rfl⟩ := Int.eq_ofNat_of_zero_le hpos
    obtain ⟨c, ds, hds, hc⟩ := toDigits_eq_digit_cons m
    have hnumber := number_toDigits (Int.ofNat_lt.mp hlt) hrest
    rw [hds, List.cons_append] at hnumber
    rw [atom_ofNat, hds, List.cons_append, value_digit hc]
    exact hnumber
  | decimal t => exact hj.elim
  | str s => exact value_quoted s n rest
  | arr js => exact absurd rfl (hatom js []).1
  | obj fs => exact absurd rfl (hatom [] fs).2
  | undefined => exact hj.elim

theorem value_items {n : Nat} {cs rest : List Char} {js : List Json} {c : Char} {cs' : List Char}
    (hskip : skip cs = c :: cs') (hc : c ≠ ']') (h : items n cs = some (js, rest)) :
    value (n + 1) ('[' :: cs) = some (arr js, rest) := by
  rw [value, skip_cons (by decide)]
  simp only [hskip, h]
  split
  · next heq => exact absurd (List.cons.inj heq).1 hc
  · rfl

theorem value_fields {n : Nat} {cs rest : List Char} {fs : List (String × Json)} {c : Char}
    {cs' : List Char} (hskip : skip cs = c :: cs') (hc : c ≠ '}')
    (h : fields n cs = some (some fs, rest)) : value (n + 1) ('{' :: cs) = some (obj fs, rest) := by
  rw [value, skip_cons (by decide)]
  simp only [hskip, h]
  split
  · next heq => exact absurd (List.cons.inj heq).1 hc
  · rfl

theorem items_last {n : Nat} {cs bs rest : List Char} {j : Json} (hbs : Blank bs)
    (h : value n cs = some (j, bs ++ ']' :: rest)) : items (n + 1) cs = some ([j], rest) := by
  simp only [items, h, skip_blank hbs, skip_cons (show isSpace ']' = false by decide)]

theorem items_more {n : Nat} {cs cs' rest : List Char} {j : Json} {js : List Json}
    (h : value n cs = some (j, ',' :: cs')) (hrest : items n cs' = some (js, rest)) :
    items (n + 1) cs = some (j :: js, rest) := by
  simp only [items, h, skip_cons (show isSpace ',' = false by decide), hrest, Option.map_some]

theorem items_blank {bs : List Char} (hbs : Blank bs) (n : Nat) (cs : List Char) :
    items n (bs ++ cs) = items n cs := by
  cases n with
  | zero => rw [items, items]
  | succ n => rw [items, items, value_blank hbs]

/-- The reader of fields gets past a name. -/
theorem fields_name (k : String) (n : Nat) (cs : List Char) :
    fields (n + 1) (quoted k ++ ':' :: cs) =
      match value n cs with
      | none => none
      | some (j, rest) =>
        match skip rest with
        | '}' :: rest => some (some [(k, j)], rest)
        | ',' :: rest => (fields n rest).map fun (fs, rest) => (fs.map ((k, j) :: ·), rest)
        | _ => none := by
  have hskip : skip (quoted k ++ ':' :: cs) =
      '"' :: (k.toList.flatMap escape ++ '"' :: ':' :: cs) := by
    rw [quoted, List.cons_append, List.append_assoc]
    exact skip_cons (by decide) _
  rw [fields, hskip]
  simp only [text_quoted, skip_cons (show isSpace ':' = false by decide)]
  rfl

theorem fields_last {k : String} {n : Nat} {cs bs rest : List Char} {j : Json} (hbs : Blank bs)
    (h : value n cs = some (j, bs ++ '}' :: rest)) :
    fields (n + 1) (quoted k ++ ':' :: cs) = some (some [(k, j)], rest) := by
  simp only [fields_name, h, skip_blank hbs, skip_cons (show isSpace '}' = false by decide)]

theorem fields_more {k : String} {n : Nat} {cs cs' rest : List Char} {j : Json}
    {fs : List (String × Json)} (h : value n cs = some (j, ',' :: cs'))
    (hrest : fields n cs' = some (some fs, rest)) :
    fields (n + 1) (quoted k ++ ':' :: cs) = some (some ((k, j) :: fs), rest) := by
  simp only [fields_name, h, skip_cons (show isSpace ',' = false by decide), hrest,
    Option.map_some]

end Reader

/-! ## Written forms -/

/-- Where a written form has blanks. -/
structure Spacing where
  /-- Before an item, a field or a closing bracket of this level. -/
  margin : Nat → List Char
  /-- After a colon. -/
  colon : List Char
  blank_margin : ∀ level, Reader.Blank (margin level)
  blank_colon : Reader.Blank colon

mutual

/-- A value written with blanks. -/
def spaced (s : Spacing) (level : Nat) : Json → List Char
  | arr [] => ['[', ']']
  | arr (j :: js) => '[' :: (s.margin (level + 1) ++ spacedItems s (level + 1) (j :: js))
  | obj [] => ['{', '}']
  | obj (f :: fs) => '{' :: (s.margin (level + 1) ++ spacedFields s (level + 1) (f :: fs))
  | j => atom j

def spacedItems (s : Spacing) (level : Nat) : List Json → List Char
  | [] => s.margin (level - 1) ++ [']']
  | [j] => spaced s level j ++ (s.margin (level - 1) ++ [']'])
  | j :: js => spaced s level j ++ ',' :: (s.margin level ++ spacedItems s level js)

def spacedFields (s : Spacing) (level : Nat) : List (String × Json) → List Char
  | [] => s.margin (level - 1) ++ ['}']
  | [(k, j)] =>
    quoted k ++ ':' :: (s.colon ++ (spaced s level j ++ (s.margin (level - 1) ++ ['}'])))
  | (k, j) :: fs =>
    quoted k ++ ':' ::
      (s.colon ++ (spaced s level j ++ ',' :: (s.margin level ++ spacedFields s level fs)))

end

section Spaced

variable (s : Spacing) (level : Nat)

/-- A value begins with a character that is neither blank nor a closing bracket. -/
theorem spaced_eq_cons {j : Json} (hj : Plain j) :
    ∃ c cs, spaced s level j = c :: cs ∧ Reader.isSpace c = false ∧ c ≠ ']' := by
  cases j with
  | null => exact ⟨'n', _, rfl, by decide, by decide⟩
  | bool b =>
    cases b with
    | true => exact ⟨'t', _, rfl, by decide, by decide⟩
    | false => exact ⟨'f', _, rfl, by decide, by decide⟩
  | int i =>
    obtain ⟨m, rfl⟩ := Int.eq_ofNat_of_zero_le hj.1
    obtain ⟨c, ds, hds, hc⟩ := Reader.toDigits_eq_digit_cons m
    refine ⟨c, ds, (Reader.atom_ofNat m).trans hds, Reader.isSpace_of_isDigit hc, ?_⟩
    rintro rfl
    exact absurd hc (by decide)
  | decimal t => exact hj.elim
  | str t => exact ⟨'"', _, rfl, by decide, by decide⟩
  | arr js => cases js <;> exact ⟨'[', _, rfl, by decide, by decide⟩
  | obj fs => cases fs <;> exact ⟨'{', _, rfl, by decide, by decide⟩
  | undefined => exact hj.elim

theorem spacedItems_eq_append (j : Json) (js : List Json) :
    ∃ cs, spacedItems s level (j :: js) = spaced s level j ++ cs := by
  cases js <;> exact ⟨_, rfl⟩

theorem spacedFields_eq_cons (f : String × Json) (fs : List (String × Json)) :
    ∃ cs, spacedFields s level (f :: fs) = '"' :: cs := by
  cases fs <;> exact ⟨_, rfl⟩

end Spaced

namespace Reader

/-- The reader gives back what was written, with fuel for twice as many steps as the text has
characters. -/
structure ReadsBack (s : Spacing) (n : Nat) : Prop where
  value : ∀ j level rest, Plain j → Ends rest → 2 * (spaced s level j).length ≤ n →
    value n (spaced s level j ++ rest) = some (j, rest)
  items : ∀ j js level rest, Plain j → PlainItems js →
    2 * (spacedItems s level (j :: js)).length ≤ n →
    items n (spacedItems s level (j :: js) ++ rest) = some (j :: js, rest)
  fields : ∀ k j fs level rest, Plain j → PlainFields fs →
    2 * (spacedFields s level ((k, j) :: fs)).length ≤ n →
    fields n (spacedFields s level ((k, j) :: fs) ++ rest) = some (some ((k, j) :: fs), rest)

section Step

variable {s : Spacing} {n : Nat} (h : ReadsBack s n) {j : Json} {level : Nat}
include h

theorem ReadsBack.value_succ (hj : Plain j) {rest : List Char} (hrest : Ends rest)
    (hn : 2 * (spaced s level j).length ≤ n + 1) :
    Reader.value (n + 1) (spaced s level j ++ rest) = some (j, rest) := by
  match j with
  | .arr [] => rfl
  | .arr (j :: js) =>
    simp only [spaced, List.length_cons, List.length_append] at hn
    have hitems := h.items j js (level + 1) rest hj.1 hj.2 (by omega)
    obtain ⟨cs, hcs⟩ := spacedItems_eq_append s (level + 1) j js
    obtain ⟨c, cs', hj', hspace, hc⟩ := spaced_eq_cons s (level + 1) hj.1
    have hskip : skip (s.margin (level + 1) ++ (spacedItems s (level + 1) (j :: js) ++ rest)) =
        c :: (cs' ++ cs ++ rest) := by
      rw [skip_blank (s.blank_margin _), hcs, hj']
      exact skip_cons hspace _
    rw [spaced, List.cons_append, List.append_assoc]
    exact value_items hskip hc ((items_blank (s.blank_margin _) n _).trans hitems)
  | .obj [] => rfl
  | .obj ((k, j) :: fs) =>
    simp only [spaced, List.length_cons, List.length_append] at hn
    have hfields := h.fields k j fs (level + 1) rest hj.1 hj.2 (by omega)
    obtain ⟨cs, hcs⟩ := spacedFields_eq_cons s (level + 1) (k, j) fs
    have hskip : skip (s.margin (level + 1) ++
        (spacedFields s (level + 1) ((k, j) :: fs) ++ rest)) = '"' :: (cs ++ rest) := by
      rw [skip_blank (s.blank_margin _), hcs]
      exact skip_cons (by decide) _
    rw [spaced, List.cons_append, List.append_assoc]
    exact value_fields hskip (by decide) ((fields_blank (s.blank_margin _) n _).trans hfields)
  | .null => exact value_atom hj (fun _ _ => ⟨nofun, nofun⟩) n hrest
  | .bool b => exact value_atom hj (fun _ _ => ⟨nofun, nofun⟩) n hrest
  | .int i => exact value_atom hj (fun _ _ => ⟨nofun, nofun⟩) n hrest
  | .decimal t => exact hj.elim
  | .str t => exact value_atom hj (fun _ _ => ⟨nofun, nofun⟩) n hrest
  | .undefined => exact hj.elim

theorem ReadsBack.items_succ {js : List Json} {rest : List Char} (hj : Plain j)
    (hjs : PlainItems js) (hn : 2 * (spacedItems s level (j :: js)).length ≤ n + 1) :
    Reader.items (n + 1) (spacedItems s level (j :: js) ++ rest) = some (j :: js, rest) := by
  cases js with
  | nil =>
    simp only [spacedItems, List.length_append, List.length_singleton] at hn
    have hends : Ends (s.margin (level - 1) ++ ']' :: rest) :=
      ends_blank (s.blank_margin _) ⟨by decide, by decide, by decide, by decide⟩
    rw [spacedItems, List.append_assoc, List.append_assoc]
    exact items_last (s.blank_margin _) (h.value j level _ hj hends (by omega))
  | cons j' js =>
    have htext : spacedItems s level (j :: j' :: js) ++ rest = spaced s level j ++
        ',' :: (s.margin level ++ (spacedItems s level (j' :: js) ++ rest)) := by
      simp only [spacedItems, List.append_assoc, List.cons_append]
    simp only [spacedItems, List.length_append, List.length_cons] at hn
    have hrest := h.items j' js level rest hjs.1 hjs.2 (by omega)
    rw [htext]
    exact items_more
      (h.value j level _ hj ⟨by decide, by decide, by decide, by decide⟩ (by omega))
      ((items_blank (s.blank_margin _) n _).trans hrest)

theorem ReadsBack.fields_succ {k : String} {fs : List (String × Json)} {rest : List Char}
    (hj : Plain j) (hfs : PlainFields fs)
    (hn : 2 * (spacedFields s level ((k, j) :: fs)).length ≤ n + 1) :
    Reader.fields (n + 1) (spacedFields s level ((k, j) :: fs) ++ rest) =
      some (some ((k, j) :: fs), rest) := by
  cases fs with
  | nil =>
    have htext : spacedFields s level [(k, j)] ++ rest = quoted k ++ ':' ::
        (s.colon ++ (spaced s level j ++ (s.margin (level - 1) ++ '}' :: rest))) := by
      simp only [spacedFields, List.append_assoc, List.cons_append, List.nil_append]
    simp only [spacedFields, List.length_append, List.length_cons] at hn
    have hends : Ends (s.margin (level - 1) ++ '}' :: rest) :=
      ends_blank (s.blank_margin _) ⟨by decide, by decide, by decide, by decide⟩
    rw [htext]
    exact fields_last (s.blank_margin _)
      ((value_blank s.blank_colon n _).trans (h.value j level _ hj hends (by omega)))
  | cons f fs =>
    obtain ⟨k', j'⟩ := f
    have htext : spacedFields s level ((k, j) :: (k', j') :: fs) ++ rest = quoted k ++ ':' ::
        (s.colon ++ (spaced s level j ++
          ',' :: (s.margin level ++ (spacedFields s level ((k', j') :: fs) ++ rest)))) := by
      simp only [spacedFields, List.append_assoc, List.cons_append]
    simp only [spacedFields, List.length_append, List.length_cons] at hn
    have hrest := h.fields k' j' fs level rest hfs.1 hfs.2 (by omega)
    have hvalue := h.value j level
      (',' :: (s.margin level ++ (spacedFields s level ((k', j') :: fs) ++ rest))) hj
      ⟨by decide, by decide, by decide, by decide⟩ (by omega)
    rw [htext]
    exact fields_more ((value_blank s.blank_colon n _).trans hvalue)
      ((fields_blank (s.blank_margin _) n _).trans hrest)

end Step

theorem readsBack (s : Spacing) (n : Nat) : ReadsBack s n := by
  induction n with
  | zero =>
    constructor
    · intro j level rest hj _ hn
      obtain ⟨c, cs, hcs, -⟩ := spaced_eq_cons s level hj
      rw [hcs, List.length_cons] at hn
      omega
    · intro j js level rest hj _ hn
      obtain ⟨cs, hcs⟩ := spacedItems_eq_append s level j js
      obtain ⟨c, cs', hcs', -⟩ := spaced_eq_cons s level hj
      rw [hcs, hcs', List.cons_append, List.length_cons] at hn
      omega
    · intro k j fs level rest _ _ hn
      obtain ⟨cs, hcs⟩ := spacedFields_eq_cons s level (k, j) fs
      rw [hcs, List.length_cons] at hn
      omega
  | succ n ih =>
    exact
      { value := fun _ _ _ hj hrest hn => ih.value_succ hj hrest hn
        items := fun _ _ _ _ hj hjs hn => ih.items_succ hj hjs hn
        fields := fun _ _ _ _ _ hj hfs hn => ih.fields_succ hj hfs hn }

/-- A written value with blanks after it is a document. -/
theorem document_spaced (s : Spacing) (level : Nat) {j : Json} (hj : Plain j) {bs : List Char}
    (hbs : Blank bs) : document (spaced s level j ++ bs) = some j := by
  have hends : Ends bs := List.append_nil bs ▸ ends_blank hbs trivial
  have hrest : skip bs = [] := List.append_nil bs ▸ skip_blank hbs []
  have hvalue := (readsBack s (2 * (spaced s level j ++ bs).length + 2)).value j level bs hj hends
    (by rw [List.length_append]; omega)
  rw [document, hvalue]
  simp only [hrest, List.isEmpty_nil, if_true]

end Reader

/-! ## The compact and the pretty form -/

namespace Spacing

def dense : Spacing where
  margin _ := []
  colon := []
  blank_margin _ := nofun
  blank_colon := nofun

def indented : Spacing where
  margin := newline
  colon := [' ']
  blank_margin level := by
    intro c hc
    rcases List.mem_cons.mp hc with rfl | hc
    · rfl
    · rw [List.eq_of_mem_replicate hc]
      rfl
  blank_colon := by
    intro c hc
    rw [List.mem_singleton.mp hc]
    rfl

end Spacing

mutual

theorem compactChars_eq_spaced : ∀ (j : Json) (level : Nat),
    compactChars j = spaced .dense level j
  | .arr [], _ => rfl
  | .arr (j :: js), level => congrArg ('[' :: ·) (compactItems_eq_spaced (j :: js) (level + 1))
  | .obj [], _ => rfl
  | .obj (f :: fs), level => congrArg ('{' :: ·) (compactFields_eq_spaced (f :: fs) (level + 1))
  | .null, _ | .bool _, _ | .int _, _ | .decimal _, _ | .str _, _ | .undefined, _ => rfl

theorem compactItems_eq_spaced : ∀ (js : List Json) (level : Nat),
    compactItems js = spacedItems .dense level js
  | [], _ => rfl
  | [j], level => congrArg (· ++ [']']) (compactChars_eq_spaced j level)
  | j :: j' :: js, level =>
    congrArg₂ (fun cs ds => cs ++ ',' :: ds) (compactChars_eq_spaced j level)
      (compactItems_eq_spaced (j' :: js) level)

theorem compactFields_eq_spaced : ∀ (fs : List (String × Json)) (level : Nat),
    compactFields fs = spacedFields .dense level fs
  | [], _ => rfl
  | [(k, j)], level =>
    congrArg (fun cs => quoted k ++ ':' :: (cs ++ ['}'])) (compactChars_eq_spaced j level)
  | (k, j) :: f :: fs, level =>
    congrArg₂ (fun cs ds => quoted k ++ ':' :: (cs ++ ',' :: ds)) (compactChars_eq_spaced j level)
      (compactFields_eq_spaced (f :: fs) level)

end

mutual

theorem prettyChars_eq_spaced : ∀ (j : Json) (level : Nat),
    prettyChars level j = spaced .indented level j
  | .arr [], _ => rfl
  | .arr (j :: js), level =>
    congrArg (fun cs => '[' :: (newline (level + 1) ++ cs))
      (prettyItems_eq_spaced (j :: js) (level + 1))
  | .obj [], _ => rfl
  | .obj (f :: fs), level =>
    congrArg (fun cs => '{' :: (newline (level + 1) ++ cs))
      (prettyFields_eq_spaced (f :: fs) (level + 1))
  | .null, _ | .bool _, _ | .int _, _ | .decimal _, _ | .str _, _ | .undefined, _ => rfl

theorem prettyItems_eq_spaced : ∀ (js : List Json) (level : Nat),
    prettyItems level js = spacedItems .indented level js
  | [], _ => rfl
  | [j], level =>
    congrArg (· ++ (newline (level - 1) ++ [']'])) (prettyChars_eq_spaced j level)
  | j :: j' :: js, level =>
    congrArg₂ (fun cs ds => cs ++ ',' :: (newline level ++ ds)) (prettyChars_eq_spaced j level)
      (prettyItems_eq_spaced (j' :: js) level)

theorem prettyFields_eq_spaced : ∀ (fs : List (String × Json)) (level : Nat),
    prettyFields level fs = spacedFields .indented level fs
  | [], _ => rfl
  | [(k, j)], level =>
    congrArg (fun cs => quoted k ++ ':' :: ' ' :: (cs ++ (newline (level - 1) ++ ['}'])))
      (prettyChars_eq_spaced j level)
  | (k, j) :: f :: fs, level =>
    congrArg₂ (fun cs ds => quoted k ++ ':' :: ' ' :: (cs ++ ',' :: (newline level ++ ds)))
      (prettyChars_eq_spaced j level) (prettyFields_eq_spaced (f :: fs) level)

end

theorem parse?_compact {j : Json} (hj : Plain j) : parse? j.compact = some j := by
  have hread := Reader.document_spaced .dense 0 hj (fun _ h => absurd h List.not_mem_nil)
  rw [List.append_nil, ← compactChars_eq_spaced] at hread
  rw [parse?, compact, String.toList_ofList, hread]

/-- Blanks after the pretty form do no harm. -/
theorem parse?_pretty {j : Json} (hj : Plain j) {s : String} (hs : Reader.Blank s.toList) :
    parse? (j.pretty ++ s) = some j := by
  have hread := Reader.document_spaced .indented 0 hj hs
  rw [← prettyChars_eq_spaced] at hread
  rw [parse?, pretty, String.toList_append, String.toList_ofList, hread]

end Json
end Unweave
