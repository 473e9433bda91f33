import Unweave.Json.Basic

/-!
# Writing JSON

Two written forms of one value: the compact one, whose digest names a snapshot, and the pretty one,
with two blanks a level, which files and answers hold.  Only the quote, the backslash and control
characters are escaped.
-/

namespace Unweave
namespace Json

def hexDigit (n : Nat) : Char := "0123456789abcdef".toList.getD n '0'

def escape (c : Char) : List Char :=
  if c = '"' then ['\\', '"']
  else if c = '\\' then ['\\', '\\']
  else if c = '\x08' then ['\\', 'b']
  else if c = '\x0c' then ['\\', 'f']
  else if c = '\n' then ['\\', 'n']
  else if c = '\r' then ['\\', 'r']
  else if c = '\t' then ['\\', 't']
  else if c.toNat < 0x20 then
    ['\\', 'u', '0', '0', hexDigit (c.toNat / 16), hexDigit (c.toNat % 16)]
  else [c]

def quoted (s : String) : List Char := '"' :: (s.toList.flatMap escape ++ ['"'])

def digits (i : Int) : List Char :=
  if i < 0 then '-' :: Nat.toDigits 10 i.natAbs else Nat.toDigits 10 i.natAbs

/-- What a value without parts is written as. -/
def atom : Json → List Char
  | bool true => ['t', 'r', 'u', 'e']
  | bool false => ['f', 'a', 'l', 's', 'e']
  | int i => digits i
  | decimal text => text.toList
  | str s => quoted s
  | _ => ['n', 'u', 'l', 'l']

mutual

def compactChars : Json → List Char
  | arr items => '[' :: compactItems items
  | obj fields => '{' :: compactFields fields
  | j => atom j

/-- The items of an array and its closing bracket. -/
def compactItems : List Json → List Char
  | [] => [']']
  | [j] => compactChars j ++ [']']
  | j :: js => compactChars j ++ ',' :: compactItems js

/-- The fields of an object and its closing brace. -/
def compactFields : List (String × Json) → List Char
  | [] => ['}']
  | [(k, j)] => quoted k ++ ':' :: (compactChars j ++ ['}'])
  | (k, j) :: fs => quoted k ++ ':' :: (compactChars j ++ ',' :: compactFields fs)

end

/-- A line end and the margin of a level. -/
def newline (level : Nat) : List Char := '\n' :: List.replicate (2 * level) ' '

mutual

def prettyChars (level : Nat) : Json → List Char
  | arr [] => ['[', ']']
  | arr (j :: js) => '[' :: (newline (level + 1) ++ prettyItems (level + 1) (j :: js))
  | obj [] => ['{', '}']
  | obj (f :: fs) => '{' :: (newline (level + 1) ++ prettyFields (level + 1) (f :: fs))
  | j => atom j

def prettyItems (level : Nat) : List Json → List Char
  | [] => newline (level - 1) ++ [']']
  | [j] => prettyChars level j ++ (newline (level - 1) ++ [']'])
  | j :: js => prettyChars level j ++ ',' :: (newline level ++ prettyItems level js)

def prettyFields (level : Nat) : List (String × Json) → List Char
  | [] => newline (level - 1) ++ ['}']
  | [(k, j)] => quoted k ++ ':' :: ' ' :: (prettyChars level j ++ (newline (level - 1) ++ ['}']))
  | (k, j) :: fs =>
    quoted k ++ ':' :: ' ' :: (prettyChars level j ++ ',' :: (newline level ++ prettyFields level fs))

end

def compact (j : Json) : String := String.ofList (compactChars j)

def pretty (j : Json) : String := String.ofList (prettyChars 0 j)

end Json
end Unweave
