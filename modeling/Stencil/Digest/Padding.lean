/-!
What digests of 64-byte blocks share: the padding of a message, its words, and hexadecimal text.
-/

namespace Stencil.Digest

/-- The bytes of a number in a given order, most significant first. -/
def bytesOf (count n : Nat) : List UInt8 :=
  (List.range count).map fun i => UInt8.ofNat (n / Nat.pow 256 (count - 1 - i))

/-- The bytes that follow a message of the given length: a one bit, zeros, and eight bytes that are
left to the length. -/
def padding (length : Nat) : List UInt8 :=
  0x80 :: List.replicate ((119 - length % 64) % 64) 0

/-- The parts of `size` elements; a shorter part at the end is dropped. -/
def chunks {α : Type} (size : Nat) (s : List α) : List (List α) :=
  (List.range (s.length / size)).map fun i => (s.drop (i * size)).take size

/-- The word of bytes, most significant first. -/
def word (bytes : List UInt8) : UInt32 :=
  bytes.foldl (fun acc b => acc <<< 8 ||| b.toUInt32) 0

def rotateLeft (x : UInt32) (n : UInt32) : UInt32 := x <<< n ||| x >>> (32 - n)

def hexByte (b : UInt8) : List Char :=
  [Nat.digitChar (b.toNat / 16), Nat.digitChar (b.toNat % 16)]

def hexText (bytes : List UInt8) : String := String.ofList (bytes.flatMap hexByte)

end Stencil.Digest
