import Unweave.Shell.Program.Basic

/-!
# Sets of bytes, and the program that exchanges them

A set is written as bytes, ranges, classes by name and repeated bytes.  Two sets are read side by side:
the byte at a place of the first becomes the byte at that place of the second.
-/

namespace Unweave
namespace Shell
namespace Program

def allBytes : List Char := (List.range 256).map Char.ofNat

/-! ## Writing of sets -/

/-- A piece of a written set. -/
inductive SetPiece where
  | byte (c : Char)
  | span (low high : Char)
  | kind (name : String) (members : List Char)
  | equals (c : Char)
  /-- A byte so many times; without a number, as often as needed. -/
  | repeated (c : Char) (count : Nat)

/-- A character of a set, and whether a backslash took its meaning away. -/
abbrev SetMark : Type := Char × Bool

/-- Resolve the escapes of a set.  Beside the characters there are warnings. -/
def setMarks : Nat → List Char → List String → List SetMark → List String × List SetMark
  | 0, _, warnings, out => (warnings.reverse, out.reverse)
  | n + 1, cs, warnings, out =>
    match cs with
    | [] => (warnings.reverse, out.reverse)
    | ['\\'] =>
      setMarks n [] ("warning: an unescaped backslash at end of string is not portable" :: warnings)
        (('\\', false) :: out)
    | '\\' :: c :: rest =>
      match letterEscape c with
      | some b => setMarks n rest warnings ((b, true) :: out)
      | none =>
        if isOctal c then
          let (ds, after) := takeUpTo isOctal 3 (c :: rest)
          if digitsValue 8 ds < 256 then setMarks n after warnings ((byteOf 8 ds, true) :: out)
          else
            let pair := ds.take 2
            let last := String.ofList (ds.drop 2)
            let warning := "warning: the ambiguous octal escape \\" ++ String.ofList ds ++
              " is being\n\tinterpreted as the 2-byte sequence \\0" ++ String.ofList pair ++ ", " ++
              last
            setMarks n (ds.drop 2 ++ after) (warning :: warnings) ((byteOf 8 pair, true) :: out)
        else setMarks n rest warnings ((c, true) :: out)
    | c :: rest => setMarks n rest warnings ((c, false) :: out)

/-- A byte that may not be visible. -/
def visibleByte (c : Char) : String :=
  if ' ' ≤ c && c ≤ '~' then String.singleton c else "\\" ++ padLeft 3 '0' (digitsIn 8 c.toNat)

/-- Cut at the first of a mark and a closing bracket. -/
def untilClosing (mark : Char) : List SetMark → List Char → Option (List Char × List SetMark)
  | a :: b :: ms, out =>
    if a == (mark, false) && b == (']', false) then some (out.reverse, ms)
    else untilClosing mark (b :: ms) (a.1 :: out)
  | _, _ => none

/-- The count of a repeated byte, which is octal behind a zero, if the text is one. -/
def repeatCount? (text : List Char) : Option Nat :=
  let base := if text.head? == some '0' then 8 else 10
  if text.all fun c => c.isDigit && digitValue c < base then some (digitsValue base text) else none

/-- A repeated byte in brackets, of which the first is passed: none if it is not one. -/
def repeatedByte? : List SetMark → Except String (Option (SetPiece × List SetMark))
  | (c, _) :: ('*', false) :: ms =>
    let count := ms.takeWhile fun m => !m.2 && m.1 != ']'
    match ms.drop count.length with
    | (']', false) :: rest =>
      let text := count.map Prod.fst
      match repeatCount? text with
      | some n => .ok (some (.repeated c n, rest))
      | none =>
        .error ("invalid repeat count " ++ quote (String.ofList text) ++ " in [c*n] construct")
    | _ => .ok none
  | _ => .ok none

/-- Whether a star, digits and a closing bracket come next. -/
def startsCount : List SetMark → Bool
  | ('*', false) :: ms => (ms.dropWhile fun m => m.1.isDigit).head? == some (']', false)
  | _ => false

/-- A piece in brackets, of which the first is passed: none if the bracket is a plain byte. -/
def bracketed? (ms : List SetMark) : Except String (Option (SetPiece × List SetMark)) :=
  match ms with
  | (':', false) :: rest =>
    match untilClosing ':' rest [] with
    | none => repeatedByte? ms
    | some ([], _) => .error "missing character class name \x27[::]\x27"
    | some (cs, after) =>
      let name := String.ofList cs
      match classOf? name with
      | some p => .ok (some (.kind name (allBytes.filter p), after))
      | none =>
        if startsCount rest then repeatedByte? ms
        else .error ("invalid character class " ++ quote name)
  | ('=', false) :: rest =>
    match untilClosing '=' rest [] with
    | none => repeatedByte? ms
    | some ([], _) => .error "missing equivalence class character \x27[==]\x27"
    | some ([c], after) => .ok (some (.equals c, after))
    | some (cs, _) =>
      if startsCount rest then repeatedByte? ms
      else
        .error (String.join (cs.map visibleByte) ++
          ": equivalence class operand must be a single character")
  | ms => repeatedByte? ms

/-- The pieces of a set. -/
def setPieces : Nat → List SetMark → Except String (List SetPiece)
  | 0, _ => .ok []
  | n + 1, ms =>
    match ms with
    | [] => .ok []
    | m :: rest => do
      let group ← if m == ('[', false) && rest.length > 1 then bracketed? rest else .ok none
      match group with
      | some (piece, after) => return piece :: (← setPieces n after)
      | none =>
        match rest with
        | ('-', false) :: (high, _) :: after =>
          if high < m.1 then
            throw ("range-endpoints of \x27" ++ visibleByte m.1 ++ "-" ++ visibleByte high ++
              "\x27 are in reverse collating sequence order")
          else return .span m.1 high :: (← setPieces n after)
        | rest => return .byte m.1 :: (← setPieces n rest)

namespace SetPiece

/-- No set needs more of a byte than this. -/
def greatestCount : Nat := 65536

def bytes : SetPiece → List Char
  | byte c | equals c => [c]
  | span low high => (List.range (high.toNat - low.toNat + 1)).map fun k => Char.ofNat (low.toNat + k)
  | kind _ members => members
  | repeated c count => List.replicate (min count greatestCount) c

/-- The byte that makes a set longer whose last piece this is. -/
def last? : SetPiece → Option Char
  | byte c | equals c | repeated c _ => some c
  | span _ high => some high
  | kind _ _ => none

def isKind : SetPiece → Bool
  | kind _ _ => true
  | _ => false

def isEquals : SetPiece → Bool
  | equals _ => true
  | _ => false

def isFiller : SetPiece → Bool
  | repeated _ 0 => true
  | _ => false

/-- Whether a piece is a class that a second set may not have. -/
def isRestricted : SetPiece → Bool
  | kind name _ => name != "upper" && name != "lower"
  | _ => false

end SetPiece

def bytesOfPieces (ps : List SetPiece) : List Char := ps.flatMap SetPiece.bytes

/-- Repeat the bytes that have no number until a set has the size. -/
def fill (size : Nat) (ps : List SetPiece) : List SetPiece :=
  let missing := size - (bytesOfPieces ps).length
  ps.map fun
    | .repeated c 0 => .repeated c missing
    | p => p

/-! ## Two sets side by side -/

/-- The letters of one case. -/
inductive LetterCase where
  | lower
  | upper
deriving BEq

/-- A byte of a set, with the case that its class names, and whether it is the first of the class. -/
structure SetItem where
  byte : Char
  letters : Option LetterCase := none
  first : Bool := true

def SetPiece.items (p : SetPiece) : List SetItem :=
  let letters := match p with
    | kind "lower" _ => some LetterCase.lower
    | kind "upper" _ => some .upper
    | _ => none
  match p.bytes with
  | [] => []
  | c :: cs => ⟨c, letters, true⟩ :: cs.map fun c => ⟨c, letters, !p.isKind⟩

/-- Which bytes become which.  A class of letters in the second set needs one at the same place of the
first. -/
def pairs : Nat → List SetItem → List SetItem → Except String (List (Char × Char))
  | 0, _, _ => .ok []
  | _ + 1, _, [] => .ok []
  | n + 1, as, b :: bs =>
    match b.letters, as with
    | none, [] => .ok []
    | none, a :: as => do return (a.byte, b.byte) :: (← pairs n as bs)
    | some wanted, as =>
      match as with
      | [] => .error "misaligned [:upper:] and/or [:lower:] construct"
      | a :: as =>
        match a.letters, a.first with
        | some given, true => do
          let skip := fun (xs : List SetItem) => xs.dropWhile (!·.first)
          let changed := (a :: as.takeWhile (!·.first)).map fun x =>
            (x.byte, if given == wanted then x.byte
              else if wanted == .upper then x.byte.toUpper else x.byte.toLower)
          return changed ++ (← pairs n (skip as) (skip bs))
        | _, _ => .error "misaligned [:upper:] and/or [:lower:] construct"

/-- Make a second set as long as the first by its last byte. -/
def extended (size : Nat) (qs : List SetPiece) : Except String (List SetPiece) :=
  let has := (bytesOfPieces qs).length
  if size ≤ has then .ok qs
  else
    match has, qs.getLast?.bind SetPiece.last? with
    | 0, _ => .error "when not truncating set1, string2 must be non-empty"
    | _, none =>
      .error ("when translating with string1 longer than string2,\n" ++
        "the latter string must not end with a character class")
    | _, some c => .ok (qs ++ [.repeated c (size - has)])

/-- Which bytes become which, and the bytes of the second set. -/
structure Exchange where
  changes : List (Char × Char)
  second : List Char

/-- The exchange by two sets, of which the first may be meant by what is not in it. -/
def exchange (other truncate : Bool) (ps qs : List SetPiece) : Except String Exchange := do
  let plain := bytesOfPieces ps
  let froms := if other then allBytes.filter (!plain.contains ·) else plain
  let qs := fill froms.length qs
  if qs.any SetPiece.isEquals then
    throw "[=c=] expressions may not appear in string2 when translating"
  if qs.any SetPiece.isRestricted then
    throw ("when translating, the only character classes that may appear in\nstring2 are " ++
      "\x27upper\x27 and \x27lower\x27")
  let steps := froms.length + 1
  unless other do
    discard (pairs steps (ps.flatMap SetPiece.items) (qs.flatMap SetPiece.items))
  let qs ← if truncate then .ok qs else extended froms.length qs
  let tos := bytesOfPieces qs
  if other && ps.any SetPiece.isKind &&
      !(tos.length == froms.length && tos.eraseDups.length == 1) then
    throw ("when translating with complemented character classes,\n" ++
      "string2 must map all characters in the domain to one")
  if other then return ⟨froms.zip tos, tos⟩
  return ⟨← pairs steps (ps.flatMap SetPiece.items) (qs.flatMap SetPiece.items), tos⟩

/-- The byte that each byte becomes, where later pairs win. -/
def byteTable (changes : List (Char × Char)) : Array Char :=
  changes.foldl (fun t (a, b) => t.set! a.toNat b) allBytes.toArray

/-- Of runs of the same byte keep one, if it is in a set. -/
def squeezed (inSet : Char → Bool) (cs : List Char) : List Char :=
  (cs.foldl (fun (out : List Char) c =>
    if inSet c && out.head? == some c then out else c :: out) []).reverse

/-- Read a set, and tell of what is odd in it. -/
def readSet (text : String) : Job (List SetPiece) := do
  let cs := text.toList
  let (warnings, marks) := setMarks (cs.length + 1) cs [] []
  warnings.forM complain
  match setPieces (marks.length + 1) marks with
  | .ok ps => return ps
  | .error m => failWith 1 m

/-- Membership in a set of bytes. -/
def memberOf (set : List Char) : Char → Bool :=
  let t := set.foldl (fun (t : Array Bool) c => t.set! c.toNat true) (Array.replicate 256 false)
  fun c => (t[c.toNat]?).getD false

/-- Print the input changed.  An endless input is changed period by period, unless the change looks
over the ends of periods. -/
def printChanged (looksOver : Bool) (f : List Char → List Char) : Job Unit := do
  let s ← takeInput
  if s.cut then throw .stuck
  if !s.forever.isEmpty && (looksOver || (f s.forever).isEmpty) then throw .stuck
  print { text := f s.text, forever := f s.forever }

def tr : Program := do
  let a ← arguments
    { shorts := "cCdst", mixed := false
      longs := [long "complement" 'c', long "delete" 'd', long "squeeze-repeats" 's',
        long "truncate-set1" 't'] }
  let other := a.has 'c' || a.has 'C'
  let delete := a.has 'd'
  let squeeze := a.has 's'
  match a.operands with
  | [] => failUsage 1 "missing operand"
  | [x] =>
    if delete == squeeze then
      complain ("missing operand after " ++ quote x)
      putError (if squeeze then "Two strings must be given when both deleting and squeezing repeats.\n"
        else "Two strings must be given when translating.\n")
      hint
      quit 1
  | [_, y] =>
    if delete && !squeeze then
      complain ("extra operand " ++ quote y)
      putError "Only one string may be given when deleting without squeezing repeats.\n"
      hint
      quit 1
  | _ :: y :: z :: _ => failUsage 1 ("extra operand " ++ quote (if delete && !squeeze then y else z))
  let ps ← readSet (a.operands.headD "")
  let second ← a.operands[1]?.mapM readSet
  if ps.any SetPiece.isFiller then
    failWith 1 "the [c*] repeat construct may not appear in string1"
  if ((second.getD []).filter SetPiece.isFiller).length > 1 then
    failWith 1 "only one [c*] repeat construct may appear in string2"
  let plain := memberOf (bytesOfPieces ps)
  let chosen := fun c => plain c != other
  match second with
  | none =>
    if delete then printChanged false fun cs => cs.filter (!chosen ·)
    else printChanged true (squeezed chosen)
  | some qs =>
    if delete then
      if qs.any SetPiece.isFiller then
        failWith 1 "the [c*] construct may appear in string2 only when translating"
      let kept := memberOf (bytesOfPieces qs)
      printChanged true fun cs => squeezed kept (cs.filter (!chosen ·))
    else
      match exchange other (a.has 't') ps qs with
      | .error m => failWith 1 m
      | .ok e =>
        let table := byteTable e.changes
        let f := fun (c : Char) => (table[c.toNat]?).getD c
        if squeeze then printChanged true fun cs => squeezed (memberOf e.second) (cs.map f)
        else printChanged false (·.map f)

end Program
end Shell
end Unweave
