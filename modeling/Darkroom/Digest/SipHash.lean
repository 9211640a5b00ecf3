import Darkroom.Instances

/-!
# SipHash-1-3

A keyed hash of bytes with one round for each word and three at the end, here under the zero key.
-/

namespace Darkroom
namespace SipHash

/-- The four words of the state. -/
structure State where
  /-- First word. -/
  a : UInt64
  /-- Second word. -/
  b : UInt64
  /-- Third word. -/
  c : UInt64
  /-- Fourth word. -/
  d : UInt64

/-- The state of the zero key. -/
def start : State :=
  ⟨0x736f6d6570736575, 0x646f72616e646f6d, 0x6c7967656e657261, 0x7465646279746573⟩

/-- The bits of a word turned left. -/
def turnLeft (x n : UInt64) : UInt64 :=
  (x <<< n) ||| (x >>> (64 - n))

/-- One round. -/
def round (s : State) : State :=
  let a := s.a + s.b
  let b := turnLeft s.b 13 ^^^ a
  let a := turnLeft a 32
  let c := s.c + s.d
  let d := turnLeft s.d 16 ^^^ c
  let a := a + d
  let d := turnLeft d 21 ^^^ a
  let c := c + b
  let b := turnLeft b 17 ^^^ c
  let c := turnLeft c 32
  ⟨a, b, c, d⟩

/-- The state after one word. -/
def absorb (s : State) (word : UInt64) : State :=
  let s := round { s with d := s.d ^^^ word }
  { s with a := s.a ^^^ word }

/-- The word of up to eight bytes, low byte first. -/
def word (bytes : List UInt8) : UInt64 :=
  bytes.foldr (fun byte n => (n <<< 8) ||| byte.toUInt64) 0

/-- The state after the whole words of a message, and the bytes left over. -/
def absorbAll (s : State) : List UInt8 → State × List UInt8
  | a :: b :: c :: d :: e :: f :: g :: h :: rest =>
      absorbAll (absorb s (word [a, b, c, d, e, f, g, h])) rest
  | rest => (s, rest)

/-- The hash of a message. -/
def hash (message : List UInt8) : UInt64 :=
  let (s, rest) := absorbAll start message
  let last := word rest ||| (UInt64.ofNat (message.length % 256) <<< 56)
  let s := absorb s last
  let s := round (round (round { s with c := s.c ^^^ 0xff }))
  s.a ^^^ s.b ^^^ s.c ^^^ s.d

/-- The eight bytes of a word, low byte first. -/
def littleEndian (n : UInt64) : List UInt8 :=
  (List.range 8).map fun i => UInt8.ofNat (n.toNat / 2 ^ (8 * i))

end SipHash
end Darkroom
