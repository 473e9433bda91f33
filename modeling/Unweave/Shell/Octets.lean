import Unweave.Text.Utf8

/-!
# Bytes as characters

Shells and the programs they start work on bytes.  Here a byte is the character of its number, so a
text of bytes is a text of characters below 256.  Texts are turned into bytes where a command
enters, and back into characters where its output leaves.
-/

namespace Unweave
namespace Shell

def charOfByte (b : UInt8) : Char := Char.ofNat b.toNat

/-- The bytes of a text, each as a character. -/
def octets (s : String) : String := String.ofList ((Utf8.bytes s).map charOfByte)

/-- The content of a file. -/
def octetsOf (content : ByteArray) : List Char := content.toList.map charOfByte

def bytesOf (cs : List Char) : List UInt8 := cs.map fun c => UInt8.ofNat c.toNat

def contentOf (cs : List Char) : ByteArray := (bytesOf cs).toByteArray

/-- The text that bytes spell, with faults replaced. -/
def readable (s : String) : String := Utf8.lossy (bytesOf s.toList)

/-! ## Lines -/

/-- The lines of a text after one that is held in reverse.  The last may lack its feed. -/
def linesFrom (line : List Char) (lines : Array (List Char)) : List Char → Array (List Char)
  | [] => if line.isEmpty then lines else lines.push line.reverse
  | c :: cs =>
    if c == '\n' then linesFrom [] (lines.push line.reverse) cs else linesFrom (c :: line) lines cs

/-- The lines of a text without their feeds. -/
def linesOf (cs : List Char) : List (List Char) := (linesFrom [] #[] cs).toList

/-- Whether a text ends in the middle of a line. -/
def endsOpen (cs : List Char) : Bool := !cs.isEmpty && cs.getLast? != some '\n'

/-- Lines as a text, each with its feed. -/
def unlines (lines : List (List Char)) : List Char :=
  lines.flatMap fun line => line ++ ['\n']

/-! ## Classes of bytes -/

def isBlankByte (c : Char) : Bool := c == ' ' || c == '\t'

def isSpaceByte (c : Char) : Bool := c == ' ' || ('\t' ≤ c && c ≤ '\r')

def isNameStart (c : Char) : Bool := c.isAlpha || c == '_'

def isNameByte (c : Char) : Bool := c.isAlphanum || c == '_'

def isPunctuation (c : Char) : Bool := '!' ≤ c && c ≤ '~' && !c.isAlphanum

/-- The classes that a bracket may name. -/
def classOf? : String → Option (Char → Bool)
  | "alnum" => some Char.isAlphanum
  | "alpha" => some Char.isAlpha
  | "blank" => some isBlankByte
  | "cntrl" => some fun c => c < ' ' || c == '\x7f'
  | "digit" => some Char.isDigit
  | "graph" => some fun c => '!' ≤ c && c ≤ '~'
  | "lower" => some Char.isLower
  | "print" => some fun c => ' ' ≤ c && c ≤ '~'
  | "punct" => some isPunctuation
  | "space" => some isSpaceByte
  | "upper" => some Char.isUpper
  | "xdigit" => some fun c => c.isDigit || ('a' ≤ c && c ≤ 'f') || ('A' ≤ c && c ≤ 'F')
  | _ => none

/-- Whether a text is a name of a variable. -/
def isName (s : String) : Bool :=
  match s.toList with
  | c :: cs => isNameStart c && cs.all isNameByte
  | [] => false

end Shell
end Unweave
