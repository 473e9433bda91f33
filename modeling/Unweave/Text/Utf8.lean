/-!
# Bytes as text

A program may print any bytes.  They are shown as text with one replacement character for each
maximal run of bytes that begins a character and cannot be continued.
-/

namespace Unweave
namespace Utf8

def replacement : Char := Char.ofNat 0xFFFD

/-- A byte that continues a character. -/
def isTail (b : UInt8) : Bool := 0x80 ≤ b && b ≤ 0xBF

/-- Whether `c` may follow `b`, the first of two bytes. -/
def isPair (b c : UInt8) : Bool := 0xC2 ≤ b && b ≤ 0xDF && isTail c

/-- Whether `c` may follow `b`, the first of three bytes: nothing longer than needed, and no half of
a surrogate pair. -/
def startsThree (b c : UInt8) : Bool :=
  if b == 0xE0 then 0xA0 ≤ c && c ≤ 0xBF
  else if b == 0xED then 0x80 ≤ c && c ≤ 0x9F
  else 0xE1 ≤ b && b ≤ 0xEF && isTail c

/-- Whether `c` may follow `b`, the first of four bytes. -/
def startsFour (b c : UInt8) : Bool :=
  if b == 0xF0 then 0x90 ≤ c && c ≤ 0xBF
  else if b == 0xF4 then 0x80 ≤ c && c ≤ 0x8F
  else 0xF1 ≤ b && b ≤ 0xF3 && isTail c

/-- The character of a lead byte's bits and the bits of its tail. -/
def assemble (lead : Nat) (tail : List UInt8) : Char :=
  Char.ofNat (tail.foldl (fun n b => n * 64 + b.toNat % 64) lead)

/-- The characters of a text whose faults are replaced. -/
def lossyChars : List UInt8 → List Char
  | [] => []
  | b :: bs =>
    if b < 0x80 then Char.ofNat b.toNat :: lossyChars bs
    else
      match bs with
      | [] => [replacement]
      | c :: cs =>
        if isPair b c then assemble (b.toNat % 32) [c] :: lossyChars cs
        else if startsThree b c then
          match cs with
          | [] => [replacement]
          | d :: ds =>
            if isTail d then assemble (b.toNat % 16) [c, d] :: lossyChars ds
            else replacement :: lossyChars (d :: ds)
        else if startsFour b c then
          match cs with
          | [] => [replacement]
          | d :: ds =>
            if isTail d then
              match ds with
              | [] => [replacement]
              | e :: es =>
                if isTail e then assemble (b.toNat % 8) [c, d, e] :: lossyChars es
                else replacement :: lossyChars (e :: es)
            else replacement :: lossyChars (d :: ds)
        else replacement :: lossyChars (c :: cs)

def lossy (bytes : List UInt8) : String := String.ofList (lossyChars bytes)

def bytes (s : String) : List UInt8 := s.toUTF8.toList

end Utf8
end Unweave
