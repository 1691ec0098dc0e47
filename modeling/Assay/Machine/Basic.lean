import Assay.Error
import Assay.Machine.Host

/-!
# Machine — files and the programs started on them

The state that a run works on, and the two things done to it that are more than file operations:
running a program under a time limit, and removing a tree, which may be refused.
-/

namespace Assay

structure Machine where
  files : FileSystem
  /-- The programs started so far, in order. -/
  started : List Image := []
  /-- What becomes of the next removals: each takes one answer, and where a cause is given the
  removal fails by it. Beyond the list none is refused. -/
  refusals : List (Option Fault) := []

/-- How a program fared under a time limit. -/
inductive Finish where
  | completed (o : Output)
  | timedOut (limit : Duration)
  deriving DecidableEq, Repr

namespace Machine

def onFiles {α : Type} (f : FileSystem → α × FileSystem) (m : Machine) : α × Machine :=
  let (a, fs) := f m.files
  (a, { m with files := fs })

/-- Replaces the file system by the result of an operation, if that succeeds. -/
def attempt (op : FileSystem → Except Fault FileSystem) (m : Machine) :
    Except Fault Unit × Machine :=
  match op m.files with
  | .ok fs     => (.ok (), { m with files := fs })
  | .error why => (.error why, m)

/-- Removes a tree, unless the removal is refused. -/
def removeTree (p : Path) (m : Machine) : Except Fault Unit × Machine :=
  match m.refusals with
  | some why :: r => (.error why, { m with refusals := r })
  | none :: r     => { m with refusals := r }.attempt (·.removeTree p)
  | []            => m.attempt (·.removeTree p)

/-- The machine after a program. -/
def after (m : Machine) (a : Act) : Machine :=
  { m with files := a.files, started := m.started ++ a.started }

end Machine

namespace Act

/-- What a limit makes of a program: one that has not ended before it is killed, and so is one that
cannot be waited for. -/
def finish (a : Act) (limit : Duration) : Except Error Finish :=
  match a.exit with
  | .ok (some exit) => .ok (.completed ⟨exit, a.stdout, a.stderr⟩)
  | .ok none        => .ok (.timedOut limit)
  | .error why      => .error (.file why)

end Act

namespace Invocation

/-- Runs a command line. Only a program that cannot be started or waited for is an error. -/
def run (i : Invocation) (host : Host) (limit : Duration) (m : Machine) :
    Except Error Finish × Machine :=
  match host.locate m.files i with
  | .error why => (.error (.spawn i.program why), m)
  | .ok image  =>
    let a := host.act m.files image limit
    (a.finish limit, m.after a)

end Invocation

end Assay
