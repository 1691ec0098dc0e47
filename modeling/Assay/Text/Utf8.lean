/-!
# Text — Utf8

Bytes and the text they hold.

* `encode`: the bytes of a text.
* `units`: the characters that a byte string holds, in order; a maximal part that begins a
  character and does not finish it counts as one unit without a character.
* `decode?`: the text of well-formed bytes, and `none` for any others.
* `decodeLossy`: the text of any bytes, each unit without a character shown as U+FFFD.
-/

namespace Assay

/-- File contents, path texts, arguments and captured streams. -/
abbrev Bytes := List UInt8

namespace Text.Utf8

/-- A character under way: the bytes it lacks beyond the next one, the range the next one must lie
in, and the value read so far. -/
structure Begun where
  beyond : Nat
  low : UInt8
  high : UInt8
  value : Nat
  deriving DecidableEq, Repr

/-- What a byte means where a character may start. -/
inductive Lead where
  | whole (c : Char)
  | begins (b : Begun)
  | stray
  deriving DecidableEq, Repr

/-- The first byte tells the length of a character; the ranges of the second byte leave out
over-long forms, surrogates and values above U+10FFFF. -/
def lead (b : UInt8) : Lead :=
  if b < 0x80 then .whole (Char.ofNat b.toNat)
  else if b < 0xC2 then .stray
  else if b < 0xE0 then .begins ⟨0, 0x80, 0xBF, b.toNat % 0x20⟩
  else if b = 0xE0 then .begins ⟨1, 0xA0, 0xBF, 0⟩
  else if b = 0xED then .begins ⟨1, 0x80, 0x9F, 0xD⟩
  else if b < 0xF0 then .begins ⟨1, 0x80, 0xBF, b.toNat % 0x10⟩
  else if b = 0xF0 then .begins ⟨2, 0x90, 0xBF, 0⟩
  else if b < 0xF4 then .begins ⟨2, 0x80, 0xBF, b.toNat % 0x08⟩
  else if b = 0xF4 then .begins ⟨2, 0x80, 0x8F, 4⟩
  else .stray

/-- The units read so far, newest first, and the character under way. -/
structure Reading where
  done : List (Option Char)
  begun : Option Begun
  deriving DecidableEq, Repr

/-- Reads a byte where a character may start. -/
def Reading.start (done : List (Option Char)) (b : UInt8) : Reading :=
  match lead b with
  | .whole c  => ⟨some c :: done, none⟩
  | .begins s => ⟨done, some s⟩
  | .stray    => ⟨none :: done, none⟩

/-- Reads one byte. A byte that cannot continue the character under way ends it unfinished and is
read again as a first byte. -/
def Reading.push (r : Reading) (b : UInt8) : Reading :=
  match r.begun with
  | none => .start r.done b
  | some s =>
    if s.low ≤ b ∧ b ≤ s.high then
      let value := s.value * 0x40 + b.toNat % 0x40
      match s.beyond with
      | 0     => ⟨some (Char.ofNat value) :: r.done, none⟩
      | n + 1 => ⟨r.done, some ⟨n, 0x80, 0xBF, value⟩⟩
    else .start (none :: r.done) b

/-- The units in order; a character under way at the end is unfinished. -/
def Reading.units (r : Reading) : List (Option Char) :=
  match r.begun with
  | none   => r.done.reverse
  | some _ => (none :: r.done).reverse

/-- The characters that `bs` holds, `none` standing for each maximal unfinished part. -/
def units (bs : Bytes) : List (Option Char) :=
  (bs.foldl Reading.push ⟨[], none⟩).units

/-- The bytes of a text. -/
def encode (s : String) : Bytes :=
  s.toList.flatMap String.utf8EncodeChar

/-- The text of well-formed bytes. -/
def decode? (bs : Bytes) : Option String :=
  let us := units bs
  if us.all (·.isSome) then some (String.ofList (us.filterMap id)) else none

/-- The text of any bytes, U+FFFD standing for each unit without a character. -/
def decodeLossy (bs : Bytes) : String :=
  String.ofList ((units bs).map (·.getD '\uFFFD'))

end Text.Utf8

end Assay
