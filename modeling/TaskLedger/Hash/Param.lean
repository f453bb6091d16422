/-
Parameters of a unit of work, as far as its key depends on them: a value
made of integers, texts and their combinations, and the bytes that stand
for it in the hash. A list and a choice mark their size; a tuple does
not, so values of different types can share a hash, and the key does not
claim more.
-/
import TaskLedger.Hash.Sip
import TaskLedger.Text.Utf8

namespace TaskLedger

/-- A value that a unit of work was made for. -/
inductive Param
  | nothing
  | bool (b : Bool)
  | char (c : Char)
  /-- An integer of that many bytes. -/
  | integer (width : Nat) (n : Int)
  | text (s : String)
  | bytes (bs : List UInt8)
  | list (items : List Param)
  | absent
  | present (item : Param)
  | tuple (items : List Param)
  deriving Repr

namespace Param

instance : Inhabited Param := ⟨.nothing⟩

/-- An integer in that many bytes, lowest first. Negative ones count
down from the top. -/
def littleEndian : Nat → Int → List UInt8
  | 0, _ => []
  | width + 1, n => UInt8.ofNat (n % 256).toNat :: littleEndian width (n / 256)

/-- A size, in eight bytes. -/
def sizeBytes (n : Nat) : List UInt8 := littleEndian 8 n

mutual

/-- The bytes of a value. -/
def feed : Param → List UInt8
  | .nothing => []
  | .bool b => [if b then 1 else 0]
  | .char c => littleEndian 4 c.toNat
  | .integer width n => littleEndian width n
  | .text s => Text.Utf8.ofString s ++ [0xff]
  | .bytes bs => sizeBytes bs.length ++ bs
  | .list items => sizeBytes items.length ++ feedAll items
  | .absent => sizeBytes 0
  | .present item => sizeBytes 1 ++ feed item
  | .tuple items => feedAll items

/-- The bytes of some values, one after the other. -/
def feedAll : List Param → List UInt8
  | [] => []
  | p :: ps => feed p ++ feedAll ps

end

/-- The hash of a value. -/
def hash (p : Param) : UInt64 := Sip.hash (feed p)

end Param

end TaskLedger
