import Assay.Process.Course

/-!
# Process — all processes of a run under way

Processes take their steps one at a time. One goes on until it has to wait or has had its turn, then
the next one does. Time passes only when all of them wait, up to the next moment at which one wants
to go on.

* `World.run`: a run up to its end or its limit.
-/

namespace Assay

/-- A system, and the courses of its processes in the order in which their turns come. -/
structure World where
  system : System
  courses : List (Nat × Course)

namespace World

/-- What taking a turn comes to. -/
inductive Turn where
  | moved (w : World)
  | waits

/-- The next step of the process whose turn it is; `load` says what a program does. -/
def turn (load : Image → Course) (w : World) (id : Nat) (c : Course)
    (rest : List (Nat × Course)) : Turn :=
  match w.system.running? id with
  | none   => .moved ⟨w.system, rest⟩
  | some p =>
    if p.isStopped then .waits
    else
      match c with
      | .ended e         => .moved ⟨w.system.finish id e, rest⟩
      | .become i        => .moved ⟨w.system.become id i, (id, load i) :: rest⟩
      | .fork child next =>
        let (n, s) := w.system.fork id
        .moved ⟨s, (id, next n) :: rest ++ [(n, child)]⟩
      | .step go         =>
        match go id w.system with
        | some (s, c) => .moved ⟨s, (id, c) :: rest⟩
        | none        => .waits

/-- The steps that one process may take before it is another one's turn. -/
def sliceSize : Nat := 1000

/-- Whether the process that the run began with has ended and nobody writes to its streams. -/
def isSettled (w : World) (main : Nat) : Bool :=
  (w.system.running? main).isNone && !w.system.isListening

/-- Goes on for a number of steps. `slice` are the steps left to the process whose turn it is, and
`idle` the processes in a row that had to wait. -/
def go (load : Image → Course) (main limit : Nat) : Nat → Nat → Nat → World → World
  | 0, _, _, w                => w
  | k + 1, slice, idle, w =>
    match w.courses with
    | []             => w
    | (id, c) :: rest =>
      if w.courses.length ≤ idle then
        if w.isSettled main then w
        else
          match w.system.nextAlarm? with
          | none   => w
          | some t =>
            if limit ≤ t then w
            else go load main limit k sliceSize 0 { w with system := { w.system with clock := t } }
      else
        match w.turn load id c rest with
        | .waits   => go load main limit k sliceSize (idle + 1) { w with courses := rest ++ [(id, c)] }
        | .moved w =>
          match slice, w.courses with
          | 0, head :: rest => go load main limit k sliceSize 0 { w with courses := rest ++ [head] }
          | 0, []           => w
          | slice + 1, _    => go load main limit k slice 0 w

/-- The steps that a run may take; one that takes more counts as one that never ends. -/
def stepLimit : Nat := 1000000

/-- The number of the first process. -/
def firstProcess : Nat := 4096

/-- A world in which one program is about to start. -/
def ofImage (files : FileSystem) (i : Image) : World where
  system :=
    { files := files
      openings :=
        [(0, ⟨.device .null, true, false, false, 0⟩), (1, ⟨.kept false, false, true, false, 0⟩),
         (2, ⟨.kept true, false, true, false, 0⟩)]
      processes :=
        [{ id := firstProcess, parent := firstProcess - 1, directory := files.cwd
           descriptors := [(0, ⟨0, false⟩), (1, ⟨1, false⟩), (2, ⟨2, false⟩)] }]
      next := firstProcess + 1 }
  courses := [(firstProcess, .become i)]

/-- Runs a program for some nanoseconds at most: what is left, and how it ended if it did. -/
def run (load : Image → Course) (files : FileSystem) (i : Image) (limit : Nat) :
    System × Option Exit :=
  let w := go load firstProcess limit stepLimit sliceSize 0 (ofImage files i)
  let exit := (w.system.process? firstProcess).bind (·.ended)
  (w.system, if w.isSettled firstProcess then exit else none)

end World

end Assay
