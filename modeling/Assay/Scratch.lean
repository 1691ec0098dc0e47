import Assay.Machine.Basic

/-!
# Scratch — a directory of its own for each fixture

Build outputs go into a directory that is made for one fixture and removed after it. Its name is a
label, in which everything but letters and digits is a hyphen, and an id that no other has.

* `Scratch.create`: makes the directory, and those above it that are missing; it never takes one
  that exists.
* `Scratch.cleanup`: removes the directory; once that has worked, later calls do nothing.
* `Scratch.drop`: the same with the outcome kept quiet.
-/

namespace Assay

structure Scratch where
  path : Path
  /-- Whether a cleanup has worked. -/
  removed : Bool := false
  deriving DecidableEq, Repr

namespace Scratch

/-- The id of a number: its last twelve hexadecimal digits. -/
def idOf (n : Nat) : String :=
  let ds := Nat.toDigits 16 (n % 0x1000000000000)
  String.ofList (List.replicate (12 - ds.length) '0' ++ ds)

/-- What a label looks like in a name. -/
def sanitize (label : String) : String :=
  String.ofList (label.toList.map fun c => if c.isAlphanum then c.toLower else '-')

/-- The name of a scratch directory. -/
def dirName (label id : String) : String := sanitize label ++ "-" ++ id

/-- Makes a scratch directory below `base`. -/
def create (base : Path) (label id : String) (m : Machine) : Except Error Scratch × Machine :=
  let path := base.child (dirName label id)
  match m.onFiles (·.makeDirs base) with
  | (.error why, m) => (.error (.scratch base why), m)
  | (.ok (), m)     =>
    match m.attempt (·.makeDir path) with
    | (.error why, m) => (.error (.scratch path why), m)
    | (.ok (), m)     => (.ok ⟨path, false⟩, m)

/-- A path inside the directory. -/
def file (s : Scratch) (name : String) : Path := s.path.child name

/-- Removes the directory with all it holds. One that is gone already counts as removed. -/
def cleanup (s : Scratch) (m : Machine) : Except Error Unit × Scratch × Machine :=
  if s.removed then (.ok (), s, m)
  else
    match m.removeTree s.path with
    | (.ok (), m)                => (.ok (), { s with removed := true }, m)
    | (.error (.os .notFound), m) => (.ok (), { s with removed := true }, m)
    | (.error why, m)            => (.error (.file why), s, m)

/-- Removes the directory if no cleanup has, and keeps quiet about a failure. -/
def drop (s : Scratch) (m : Machine) : Machine := (s.cleanup m).2.2

end Scratch

end Assay
