/-
Names for builds: sixteen bytes in hexadecimal digits, in five groups.
Drawn at random, two builds share a name with no chance worth counting;
six bits are fixed and say that the rest was drawn.
-/
namespace TaskLedger.Command.BuildName

/-- The seventh byte starts with a four, and the ninth with the bits 10. -/
def marked (bytes : List UInt8) : List UInt8 :=
  bytes.zipIdx.map fun (b, i) =>
    if i = 6 then b &&& 0x0f ||| 0x40 else if i = 8 then b &&& 0x3f ||| 0x80 else b

/-- The two digits of a byte. -/
def digits (b : UInt8) : List Char :=
  [Nat.digitChar (b.toNat / 16), Nat.digitChar (b.toNat % 16)]

/-- The first bytes of each group but the first. -/
def groupStarts : List Nat := [4, 6, 8, 10]

/-- The name that some bytes give. -/
def ofBytes (bytes : List UInt8) : String :=
  String.ofList ((marked bytes).zipIdx.flatMap fun (b, i) =>
    (if groupStarts.contains i then ['-'] else []) ++ digits b)

end TaskLedger.Command.BuildName
