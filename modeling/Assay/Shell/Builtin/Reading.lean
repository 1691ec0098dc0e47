import Assay.Shell.Builtin.Naming

/-!
# Shell — reading a line

Takes a line from a stream and gives its fields to names. A backslash keeps the character behind it
from separating fields, and one at the end of a line takes the next line with it.

* `Reading.read`.
-/

namespace Assay.Shell.Builtin.Reading

/-- A line under way. -/
structure Line where
  /-- Newest first. -/
  stretches : List Stretch := []
  current : List Glyph := []
  isEscaped : Bool := false

namespace Line

/-- Ends the stretch under way. -/
def close (l : Line) : Line :=
  { l with stretches := ⟨l.current.reverse, .always⟩ :: l.stretches, current := [] }

/-- Takes a character; none means that the line is at its end. -/
def take (raw : Bool) (l : Line) (c : Char) : Option Line :=
  if c = '\x00' then some l
  else if l.isEscaped then
    if c = '\n' then some { l.close with isEscaped := false }
    else
      let l := l.close
      some { l with stretches := ⟨[.char c false], .never⟩ :: l.stretches, isEscaped := false }
  else if c = '\\' && !raw then some { l with isEscaped := true }
  else if c = '\n' then none
  else some { l with current := .char c true :: l.current }

/-- Takes characters up to the end of the line; whether it was reached. -/
def takeAll (raw : Bool) : Line → List Char → Line × Bool
  | l, []     => (l, false)
  | l, c :: r =>
    match l.take raw c with
    | some l => takeAll raw l r
    | none   => (l, true)

end Line

/-- Reads until the line is at its end; whether there was one. At most `k` times something is read. -/
def readLine (raw : Bool) : Nat → Line → Sh (Line × Bool)
  | 0, l     => pure (l, false)
  | k + 1, l => do
    match ← Sh.code (Code.read 0 (some 0x0A)) with
    | .error _ => pure (l, false)
    | .ok []   => pure (l, false)
    | .ok data =>
      match l.takeAll raw (Text.Octets.ofBytes data).toList with
      | (l, true)  => pure (l, true)
      | (l, false) => readLine raw k l

/-- The reads that a line may take. -/
def readLimit : Nat := 1000000

/-- Gives fields to names; names left over get nothing. -/
def give : List String → List String → Sh Unit
  | [], _           => pure ()
  | n :: ns, []     => do
    Sh.setVar n ""
    give ns []
  | n :: ns, f :: r => do
    Sh.setVar n f
    give ns r

/-- Reads a line and gives its fields to names. -/
def read : Part := fun _ args => do
  let (letters, names) ← options "p:r" args
  if names.isEmpty then Sh.fail "arg count"
  let (l, complete) ← readLine (letters.any (·.1 = 'r')) readLimit {}
  let s ← get
  let fields := Fields.split s.separators (some names.length) l.close.stretches.reverse
  give names (fields.map Glyph.text)
  pure ⟨if complete then 0 else 1, ""⟩

end Assay.Shell.Builtin.Reading
