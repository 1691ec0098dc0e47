import Assay.FileSystem.Operations

/-!
# Process — what a file is when it is started

A file that may be started is a program of its own, known by a mark in front, or names an
interpreter in its first line, which is then started with the file's path as its argument. Any
other file cannot be started, whatever its permissions say.

* `FileSystem.image`: the program that starting a path comes to.
-/

namespace Assay

/-- A program about to run. -/
structure Image where
  file : File
  /-- The name that it is started by. -/
  name : Bytes
  args : List Bytes
  /-- Names and values that it is given. -/
  environment : List (Bytes × Bytes) := []
  deriving DecidableEq, Repr

namespace Image

/-- The mark in front of a file that is a program of its own. -/
def mark : Bytes := [0x7F, 0x45, 0x4C, 0x46]

/-- The content of a program of its own. -/
def native (text : String) : Bytes := mark ++ Text.Utf8.encode text

def isNative (f : File) : Bool := mark.isPrefixOf f.content

/-- The first bytes of a file, of which alone its kind is told. -/
def headSize : Nat := 256

/-- Interpreters that may stand behind one another. -/
def chainLimit : Nat := 5

def isBlank (b : UInt8) : Bool := b == 0x20 || b == 0x09

/-- The interpreter that the first line of a file names, and the one argument it may have. -/
def interpreter? (f : File) : Option (Bytes × List Bytes) :=
  match f.content.take headSize with
  | 0x23 :: 0x21 :: r =>
    let line := r.takeWhile (· != 0x0A)
    let line := ((line.dropWhile isBlank).reverse.dropWhile isBlank).reverse
    let name := line.takeWhile (!isBlank ·)
    let isCut := r.length + 2 = headSize ∧ !r.contains 0x0A ∧ name.length = line.length
    if name.isEmpty ∨ isCut then none
    else
      let argument := (line.drop name.length).dropWhile isBlank
      some (name, if argument.isEmpty then [] else [argument])
  | _ => none

end Image

namespace FileSystem

/-- The file at a path, if it may be started. -/
def startable (fs : FileSystem) (p : Path) : Except Fault File := do
  match ← fs.lookup true p with
  | (_, .file f) => if f.executable then pure f else throw (.os .permissionDenied)
  | _            => throw (.os .permissionDenied)

/-- The program that starting a path comes to, with up to `k` interpreters on the way. -/
def imageWithin (fs : FileSystem) : Nat → Path → Image → Except Fault Image
  | 0, _, _     => .error (.os .tooManyLinks)
  | k + 1, p, i => do
    let f ← fs.startable p
    if Image.isNative f then pure { i with file := f }
    else
      match Image.interpreter? f with
      | none              => throw (.os .badFormat)
      | some (name, args) =>
        fs.imageWithin k ⟨name⟩ { i with name := name, args := args ++ p.bytes :: i.args }

/-- The program that starting a path with a name and arguments comes to. -/
def image (fs : FileSystem) (p : Path) (name : Bytes) (args : List Bytes)
    (environment : List (Bytes × Bytes)) : Except Fault Image :=
  fs.imageWithin (Image.chainLimit + 1) p ⟨⟨[], false⟩, name, args, environment⟩

end FileSystem

end Assay
