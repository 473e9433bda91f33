import Unweave.Shell.Octets

/-!
# Name patterns

Patterns for names and texts as a whole: a star stands for any text, a question mark for one byte,
and a bracket for one byte of a set.  A quoted character stands for itself.
-/

namespace Unweave
namespace Shell

/-- A character and whether it was quoted. -/
abbrev Mark : Type := Char × Bool

def Mark.isBare (m : Mark) (c : Char) : Bool := !m.2 && m.1 == c

namespace Pattern

inductive Member where
  | range (low high : Char)
  | kind (p : Char → Bool)

def Member.has (m : Member) (c : Char) : Bool :=
  match m with
  | .range low high => low ≤ c && c ≤ high
  | .kind p => p c

inductive Item where
  | char (c : Char)
  | any
  | star
  | oneOf (negated : Bool) (members : List Member)

/-- The name of a class, whose colon and bracket are read. -/
def className? (ms : List Mark) : Option ((Char → Bool) × List Mark) :=
  let name := ms.takeWhile fun m => m.1.isAlpha
  match ms.drop name.length with
  | (':', _) :: (']', _) :: rest =>
    (classOf? (String.ofList (name.map (·.1)))).map fun p => (p, rest)
  | _ => none

/-- The members of a bracket up to the one that closes it, which may not come first. -/
def members : Nat → Bool → List Mark → Option (List Member × List Mark)
  | 0, _, _ => none
  | _ + 1, _, [] => none
  | n + 1, first, m :: ms =>
    if m.isBare ']' && !first then some ([], ms)
    else
      match if m.isBare '[' then
          match ms with
          | (':', false) :: rest => className? rest
          | _ => none
        else none with
      | some (p, rest) => (members n false rest).map fun (xs, rest) => (.kind p :: xs, rest)
      | none =>
        let (c, ms) : Char × List Mark := match m, ms with
          | ('\\', false), (d, _) :: rest => (d, rest)
          | (c, _), ms => (c, ms)
        match ms with
        | d :: e :: rest =>
          if d.isBare '-' && !e.isBare ']' then
            let (e, rest) : Char × List Mark := match e, rest with
              | ('\\', false), (x, _) :: rest => (x, rest)
              | (x, _), rest => (x, rest)
            (members n false rest).map fun (xs, rest) => (.range c e :: xs, rest)
          else (members n false ms).map fun (xs, rest) => (.range c c :: xs, rest)
        | ms => (members n false ms).map fun (xs, rest) => (.range c c :: xs, rest)

/-- A bracket whose first character is read; one that is not closed stands for itself. -/
def bracket? (ms : List Mark) : Option (Item × List Mark) :=
  match ms with
  | m :: rest =>
    if m.isBare '!' then
      (members (rest.length + 1) true rest).map fun (xs, rest) => (.oneOf true xs, rest)
    else (members (ms.length + 1) true ms).map fun (xs, rest) => (.oneOf false xs, rest)
  | [] => none

def items : Nat → List Mark → List Item
  | 0, _ => []
  | _ + 1, [] => []
  | n + 1, (c, quoted) :: ms =>
    if quoted then .char c :: items n ms
    else if c == '*' then .star :: items n ms
    else if c == '?' then .any :: items n ms
    else if c == '[' then
      match bracket? ms with
      | some (item, rest) => item :: items n rest
      | none => .char c :: items n ms
    else if c == '\\' then
      match ms with
      | (d, _) :: rest => .char d :: items n rest
      | [] => [.char c]
    else .char c :: items n ms

def ofMarks (ms : List Mark) : List Item := items (ms.length + 1) ms

/-- A pattern in plain text. -/
def ofText (s : String) : List Item := ofMarks (s.toList.map (·, false))

/-- What may be left after a text that a star stands for. -/
def suffixes : List Char → List (List Char)
  | [] => [[]]
  | c :: cs => (c :: cs) :: suffixes cs

/-- Whether a pattern matches a text as a whole. -/
def covers : List Item → List Char → Bool
  | [], cs => cs.isEmpty
  | .star :: is, cs => is.isEmpty || (suffixes cs).any (covers is)
  | .any :: is, _ :: cs => covers is cs
  | .char x :: is, c :: cs => x == c && covers is cs
  | .oneOf negated xs :: is, c :: cs => (xs.any (·.has c)) != negated && covers is cs
  | _ :: _, [] => false

/-- Whether marks hold a character that makes a pattern of them. -/
def isActive (ms : List Mark) : Bool :=
  ms.any fun (c, quoted) => !quoted && (c == '*' || c == '?' || c == '[')

/-- Cut the shortest or longest match off a text. -/
def trim (p : List Item) (atEnd longest : Bool) (cs : List Char) : List Char :=
  if atEnd then
    let cuts := (List.range (cs.length + 1)).filter fun n => covers p (cs.drop n)
    match if longest then cuts.head? else cuts.getLast? with
    | some n => cs.take n
    | none => cs
  else
    let cuts := (List.range (cs.length + 1)).filter fun n => covers p (cs.take n)
    match if longest then cuts.getLast? else cuts.head? with
    | some n => cs.drop n
    | none => cs

end Pattern
end Shell
end Unweave
