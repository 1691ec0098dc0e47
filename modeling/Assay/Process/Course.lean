import Assay.Process.Life

/-!
# Process — what a process goes on to do

A course is a tree of steps: what a process does next, given the state of the system, until it ends.
Code is a piece of a course that has a result, written so that it can be put together from pieces.

* `Course`, `Code`.
* `Code.read`, `Code.print`, `Code.sleep`: the steps that programs are made of.
-/

namespace Assay

inductive Course where
  | ended (e : Exit)
  /-- A step that the process with some number takes as soon as the system lets it. -/
  | step (go : Nat → System → Option (System × Course))
  /-- Goes on as two processes; the first is told the number of the second. -/
  | fork (child : Course) (next : Nat → Course)
  /-- Goes on as another program. -/
  | become (i : Image)

/-- A piece of a course with a result: it says how the course goes on once it is known how the course
goes on behind it. -/
def Code (α : Type) : Type := (α → Course) → Course

namespace Code

variable {α : Type}

instance : Monad Code where
  pure a := fun k => k a
  bind x f := fun k => x fun a => f a k

/-- A step that may have to wait. -/
def await (f : Nat → System → Option (α × System)) : Code α :=
  fun k => .step fun id s => (f id s).map fun r => (r.2, k r.1)

/-- A step that never waits. -/
def call (f : Nat → System → α × System) : Code α := await fun id s => some (f id s)

def look (f : Nat → System → α) : Code α := call fun id s => (f id s, s)

def change (f : Nat → System → System) : Code Unit := call fun id s => ((), f id s)

/-- Ends the process. -/
def exit (e : Exit) : Code α := fun _ => .ended e

/-- Never goes on. -/
def stuck : Code α := await fun _ _ => none

/-- All of a process that ends well once it is through. -/
def course (c : Code Unit) : Course := c fun _ => .ended (.code 0)

/-! ### Streams -/

/-- Reads what there is; nothing means that there is no more to come. -/
def read (fd : Nat) (stop : Option UInt8) : Code (Except Errno Bytes) :=
  await fun id s => s.read id fd stop

def write (fd : Nat) (data : Bytes) : Code (Except Errno Unit) :=
  await fun id s => s.write id fd data

/-- Writes and does not ask whether that worked. -/
def print (fd : Nat) (data : Bytes) : Code Unit := do
  let _ ← write fd data

/-- Opens a path at the lowest descriptor that is free. -/
def openPath (p : Path) (purpose : Purpose) : Code (Except Fault Nat) :=
  call fun id s =>
    match s.openPath id p purpose with
    | .error why => (.error why, s)
    | .ok (n, s) =>
      let fd := s.lowest id 0
      (.ok fd, s.hold id fd ⟨n, false⟩)

def close (fd : Nat) : Code Unit := change fun id s => s.close id fd

/-- Copies one stream to another until the first has no more; how that ended. Up to `k` blocks are
copied. -/
def copy (source target : Nat) : Nat → Code (Except Errno Unit × Except Errno Unit)
  | 0     => stuck
  | k + 1 => do
    match ← read source none with
    | .error why => pure (.error why, .ok ())
    | .ok []     => pure (.ok (), .ok ())
    | .ok data   =>
      match ← write target data with
      | .error why => pure (.ok (), .error why)
      | .ok ()     => copy source target k

/-- The blocks that a copy may take. -/
def copyLimit : Nat := 1000000

/-! ### Time -/

/-- Waits for some nanoseconds. -/
def sleep (nanos : Nat) : Code Unit := do
  let wake ← call fun _ s => s.setAlarm nanos
  await fun _ s => if wake ≤ s.clock then some ((), s) else none

end Code

end Assay
