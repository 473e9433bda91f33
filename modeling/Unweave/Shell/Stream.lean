import Unweave.Shell.Octets

/-!
# Streams of bytes

What a program reads or prints: some bytes, and possibly a text that then repeats without end.
-/

namespace Unweave
namespace Shell

structure Stream where
  text : List Char := []
  /-- What repeats after the text; a stream without it ends. -/
  forever : List Char := []
  /-- Whether more would follow that nobody waited for. -/
  cut : Bool := false

namespace Stream

def ofText (s : String) : Stream := { text := s.toList }

def isEndless (s : Stream) : Bool := s.cut || !s.forever.isEmpty

/-- How much of a stream without end is looked at. -/
def horizon : Nat := 262144

/-- The text, or as much of it as is looked at. -/
def seen (s : Stream) : List Char :=
  if s.forever.isEmpty then s.text
  else s.text ++ (List.replicate (horizon / s.forever.length + 1) s.forever).flatten

/-- Nothing comes after a stream without end. -/
def append (s t : Stream) : Stream :=
  if s.isEndless then s else { t with text := s.text ++ t.text }

/-- The text with at least `n` bytes of what repeats after it. -/
def unrolled (s : Stream) (n : Nat) : List Char :=
  if s.forever.isEmpty then s.text
  else s.text ++ (List.replicate (n / s.forever.length + 1) s.forever).flatten

/-- The first `n` bytes. -/
def take (s : Stream) (n : Nat) : List Char :=
  if n ≤ s.text.length then s.text.take n else (s.unrolled n).take n

/-- What follows the first `n` bytes. -/
def drop (s : Stream) (n : Nat) : Stream :=
  if n ≤ s.text.length then { s with text := s.text.drop n }
  else { s with text := (s.unrolled n).drop n }

end Stream
end Shell
end Unweave
