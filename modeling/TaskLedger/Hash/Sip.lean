/-
SipHash with one round per block, three rounds at the end, and the zero
key. Bytes come in blocks of eight, lowest first; the last block holds
what is left over and, in its top byte, the count of all bytes.
-/
namespace TaskLedger.Sip

/-- The four words of state. -/
structure State where
  v0 : UInt64 := 0x736f6d6570736575
  v1 : UInt64 := 0x646f72616e646f6d
  v2 : UInt64 := 0x6c7967656e657261
  v3 : UInt64 := 0x7465646279746573
  deriving DecidableEq, Repr

/-- Turns a word to the left. -/
def rotate (x : UInt64) (n : UInt64) : UInt64 := (x <<< n) ||| (x >>> (64 - n))

/-- One round. -/
def round (s : State) : State :=
  let v0 := s.v0 + s.v1
  let v1 := rotate s.v1 13 ^^^ v0
  let v0 := rotate v0 32
  let v2 := s.v2 + s.v3
  let v3 := rotate s.v3 16 ^^^ v2
  let v0 := v0 + v3
  let v3 := rotate v3 21 ^^^ v0
  let v2 := v2 + v1
  let v1 := rotate v1 17 ^^^ v2
  let v2 := rotate v2 32
  ⟨v0, v1, v2, v3⟩

/-- Takes in one block. -/
def absorb (s : State) (block : UInt64) : State :=
  let s := round { s with v3 := s.v3 ^^^ block }
  { s with v0 := s.v0 ^^^ block }

/-- Bytes as a word, lowest first. -/
def word : List UInt8 → UInt64
  | [] => 0
  | b :: bs => b.toUInt64 ||| (word bs <<< 8)

/-- Takes in whole blocks; the last one gets the count of all bytes. -/
def absorbAll (total : Nat) (s : State) : List UInt8 → State
  | a :: b :: c :: d :: e :: f :: g :: h :: rest =>
    absorbAll total (absorb s (word [a, b, c, d, e, f, g, h])) rest
  | rest => absorb s (word rest ||| (UInt64.ofNat (total % 256) <<< 56))

/-- The hash of some bytes. -/
def hash (bytes : List UInt8) : UInt64 :=
  let s := absorbAll bytes.length {} bytes
  let s := round (round (round { s with v2 := s.v2 ^^^ 0xff }))
  s.v0 ^^^ s.v1 ^^^ s.v2 ^^^ s.v3

end TaskLedger.Sip
