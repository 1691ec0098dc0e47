import Assay.Run.Cycle
import Assay.Script.Basic

/-!
# Script — builds whose outcome is laid down

A plan says what building a fixture comes to: nothing but a wait, a reason to fail, a task that
dies, or a program in the scratch directory. A plan may also make the scratch directory impossible
to remove, by putting a plain file in its place.

* `Plan.build`: the build that a plan describes.
* `peak`: how many planned builds wait at once.
-/

namespace Assay

structure Plan where
  /-- How long the build waits, in milliseconds; it never waits if this is missing. -/
  wait : Option Nat := none
  dies : Bool := false
  failure : Option Reason := none
  /-- The program that comes out, if any does. -/
  program : Option File := none
  undeletable : Bool := false

namespace Plan

/-- Writes a file where nothing can go wrong, or else leaves things as they are. -/
def write (p : Path) (f : File) (m : Machine) : Machine :=
  { m with files := (m.files.write p f).toOption.getD m.files }

/-- The build that a plan describes; programs of undeletable builds lie in `outside`. -/
def build (outside : Path) (plan : Plan) (f : Fixture) (scratch : Scratch) :
    Task Machine (Except Reason Artifact) := do
  if plan.dies then
    Task.change scratch.drop
    .dead
  else
    match plan.failure with
    | some reason =>
      Task.change scratch.drop
      pure (.error reason)
    | none =>
      let inside := scratch.file Stage.link.outputName
      if plan.undeletable then
        Task.change fun m =>
          let files := (m.files.removeTree scratch.path).toOption.getD m.files
          write scratch.path ⟨[], false⟩ { m with files := files }
      match plan.program, plan.undeletable with
      | none, _          => pure (.ok ⟨scratch, inside⟩)
      | some p, false    =>
        Task.change (write inside p)
        pure (.ok ⟨scratch, inside⟩)
      | some p, true     =>
        let binary := outside.child f.identifier
        Task.change fun m => write binary p { m with files := (m.files.makeDirs outside).2 }
        pure (.ok ⟨scratch, binary⟩)

/-- The pipeline of a table of plans; a fixture without one comes out without a program. -/
def pipeline (outside : Path) (plans : List (Path × Plan)) : Pipeline where
  name := "planned"
  build f := ((plans.lookup f.directory).getD {}).build outside f

end Plan

/-- Lets the builds that wait until `now` or earlier go on. -/
def wakeUntil (now : Nat) (ends : List Nat) : List Nat := ends.filter (now < ·)

/-- The most builds in the pipeline at once, for builds that begin in order as soon as one of some
permits is free, each waiting as long as stated. A build that does not wait is gone before the next
begins. -/
def peak (permits : Nat) (waits : List (Option Nat)) : Nat :=
  (waits.foldl (fun (s : Nat × Nat × List Nat) wait =>
    let (most, now, ends) := s
    let now := if ends.length < permits then now else ends.foldl min (ends.headD now)
    let ends := wakeUntil now ends
    (max most (ends.length + 1), now, ends ++ (wait.map (now + ·)).toList)) (0, 0, [])).1

end Assay
