/-!
# Byte strings

Buffers are lists of bytes. Where a buffer appears in a report it is written in
full when it is short, and by its length and its 64-bit FNV-1a hash otherwise.
-/

namespace Proactor

/-- The contents of a buffer. -/
abbrev Bytes := List UInt8

/-- The lower-case hexadecimal digit for a number below sixteen. -/
def hexDigit (digit : Nat) : Char :=
  if digit < 10 then Char.ofNat (48 + digit) else Char.ofNat (87 + digit)

/-- The digits of a number in base sixteen, in a field of the given width. -/
def hexField : Nat → Nat → List Char
  | 0, _ => []
  | width + 1, value => hexField width (value / 16) ++ [hexDigit (value % 16)]

namespace Bytes

/-- Two hexadecimal digits for each byte. -/
def hex (bytes : Bytes) : String :=
  String.ofList (bytes.flatMap fun byte => hexField 2 byte.toNat)

/-- The FNV-1a hash: each byte is mixed into the low end, then the state is multiplied. -/
def fnv1a (bytes : Bytes) : UInt64 :=
  bytes.foldl (fun hash byte => (hash ^^^ byte.toUInt64) * 0x100000001b3) 0xcbf29ce484222325

/-- The longest buffer that a report writes in full. -/
def summaryLimit : Nat :=
  32

/-- A buffer as reports show it. -/
def summary (bytes : Bytes) : String :=
  if bytes.length ≤ summaryLimit then bytes.hex
  else
    "len:" ++ toString bytes.length ++ ",fnv:" ++
      String.ofList (hexField 16 bytes.fnv1a.toNat)

end Bytes

end Proactor
