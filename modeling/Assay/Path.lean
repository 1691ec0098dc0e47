import Assay.Text.Utf8

/-!
# Path — names of files as they are written

A path is a byte string that slashes cut into segments. Its *components* are what the segments
mean without looking at any file: repeated slashes and inner dots count for nothing, a dot in front
counts. Paths are ordered by their components.
-/

namespace Assay

structure Path where
  bytes : Bytes
  deriving DecidableEq, Repr

/-- What a segment of a path means. -/
inductive Component where
  /-- The slash in front. -/
  | top
  /-- The dot in front. -/
  | here
  | up
  | name (n : Bytes)
  deriving DecidableEq, Repr

/-- Components are ordered by kind and names by their bytes. -/
def Component.key : Component → Bytes
  | .top    => [0]
  | .here   => [1]
  | .up     => [2]
  | .name n => 3 :: n

namespace Path

def slash : UInt8 := 0x2F

def dot : UInt8 := 0x2E

def ofString (s : String) : Path := ⟨Text.Utf8.encode s⟩

/-- The path as text; bytes that are no text show as U+FFFD. -/
def display (p : Path) : String := Text.Utf8.decodeLossy p.bytes

def isEmpty (p : Path) : Bool := p.bytes.isEmpty

def isAbsolute (p : Path) : Bool := p.bytes.head? == some slash

def isRelative (p : Path) : Bool := !p.isAbsolute

/-- What stands between the slashes. -/
def segments (p : Path) : List Bytes := p.bytes.splitOn slash

/-- The component of a segment behind the first. -/
def component? (s : Bytes) : Option Component :=
  if s = [] ∨ s = [dot] then none
  else if s = [dot, dot] then some .up
  else some (.name s)

/-- The component that the beginning of a path adds. -/
def lead (p : Path) : List Component :=
  if p.isAbsolute then [.top] else if p.segments.head? = some [dot] then [.here] else []

def components (p : Path) : List Component :=
  p.lead ++ p.segments.filterMap component?

/-- The order key: paths compare component by component. -/
def key (p : Path) : List Bytes := p.components.map Component.key

/-- `q` seen from `p`; an absolute `q` stays as it is. -/
def join (p q : Path) : Path :=
  if q.isAbsolute then q
  else if p.bytes.getLast?.all (· == slash) then ⟨p.bytes ++ q.bytes⟩
  else ⟨p.bytes ++ slash :: q.bytes⟩

/-- The entry `n` of the directory `p`. -/
def child (p : Path) (n : String) : Path := p.join (.ofString n)

/-- The last component, if it is a name. -/
def fileName? (p : Path) : Option Bytes :=
  match p.components.getLast? with
  | some (.name n) => some n
  | _              => none

/-- The last name as text, empty if there is none. -/
def displayName (p : Path) : String :=
  (p.fileName?.map Text.Utf8.decodeLossy).getD ""

/-- What a segment with this meaning looks like. -/
def segment : Component → Bytes
  | .top    => []
  | .here   => [dot]
  | .up     => [dot, dot]
  | .name n => n

/-- A path with these components. -/
def ofComponents : List Component → Path
  | [.top] => ⟨[slash]⟩
  | cs     => ⟨[slash].intercalate (cs.map segment)⟩

/-- The path without its last component; none for the top and for the empty path. -/
def parent? (p : Path) : Option Path :=
  match p.components.getLast? with
  | none | some .top => none
  | some _           => some (ofComponents p.components.dropLast)

/-- The components of `p` behind those of `base`. -/
def behind? (base p : Path) : Option (List Component) :=
  if base.components.isPrefixOf p.components then
    some (p.components.drop base.components.length)
  else none

end Path

end Assay
