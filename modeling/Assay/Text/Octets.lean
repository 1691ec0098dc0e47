import Assay.Text.Utf8

/-!
# Text — Octets

Bytes as a text in which every character stands for the byte with its number. It is how programs
see text that never look at more than one byte at a time.
-/

namespace Assay.Text.Octets

/-- The text that stands for some bytes. -/
def ofBytes (bs : Bytes) : String := String.ofList (bs.map fun b => Char.ofNat b.toNat)

/-- The bytes that a text stands for. -/
def toBytes (s : String) : Bytes := s.toList.map fun c => UInt8.ofNat c.toNat

end Assay.Text.Octets
