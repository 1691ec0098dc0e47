import Assay.Shell.State

/-!
# Shell — the processes that a shell starts

A shell goes on as two processes, waits for those that it started and remembers how they ended.

* `Job.start`: a process beside the shell.
* `Job.finish`: what becomes of a job that the shell waits for.
-/

namespace Assay

namespace Exit

/-- The status that a shell knows an ending by. -/
def status : Exit → Nat
  | .code n   => (n % 256).toNat
  | .signal n => 128 + n.toNat
  | .unknown  => 0

end Exit

namespace System

/-- Takes note of the ends of all children that have ended or, if `latest` is not set, of those that
ended before the present moment. -/
def reapAll (s : System) (id : Nat) (latest : Bool) : List (Nat × Exit) × System :=
  let gone := (s.children id).filterMap fun p =>
    if latest || p.endedAt < s.clock then p.ended.map fun e => (p.id, e) else none
  (gone, { s with processes := s.processes.filter fun p => !(gone.any fun g => g.1 = p.id) })

end System

namespace Shell

namespace Job

/-- Whether all of its processes have ended. -/
def isDone (j : Job) : Bool := j.members.all fun m => m.2.isSome

/-- The status of its last process. -/
def status (j : Job) : Nat := ((j.members.getLast?.bind (·.2)).map Exit.status).getD 0

/-- Notes how one of its processes ended. -/
def note (j : Job) (pid : Nat) (e : Exit) : Job :=
  { j with members := j.members.map fun m => if m.1 = pid then (pid, some e) else m }

/-- The processes that have not ended as far as the shell knows. -/
def awaited (j : Job) : List Nat := (j.members.filter fun m => m.2.isNone).map (·.1)

/-- What is said of a process that ended in an unusual way. -/
def remark? : Exit → Option String
  | .signal n =>
    if n = Signal.interrupt || n = Signal.brokenPipe then none
    else some (Signal.description n.toNat)
  | _         => none

/-! ### Starting -/

/-- What a shell forgets that is made by another one. -/
def State.asChild (s : State) : State :=
  { s with
    isInner := true
    readLine := 1
    traps := s.traps.filter (·.2 == "")
    loops := 0
    skip := none
    jobs := []
    aside := [] }

/-- The course of a shell that does something and ends with the status that comes out. -/
def courseOf (x : Sh Nat) (s : State) : Course :=
  (x.run).run s fun r =>
    match r with
    | (.ok status, _) => .ended (.code (status % 256 : Nat))
    | (.error _, s)   => .ended (.code (s.status % 256 : Nat))

/-- Goes on as two processes; gives the number of the new one. -/
def fork (child : Sh Nat) : Sh Nat :=
  ExceptT.mk fun s => fun k =>
    let start : Sh Nat := do
      Sh.code (Code.change fun id sys => sys.modify id fun p => { p with caught := [] })
      child
    .fork (courseOf start (State.asChild s)) fun pid => k (.ok pid, s)

/-- Starts a process that belongs to a new job. -/
def remember (pids : List Nat) : Sh Job := do
  let s ← get
  let jobs := s.jobs.filter fun j => !(j.isDone && j.isKnown)
  let free := (List.range (jobs.length + 1)).find? fun n => !jobs.any (·.id = n + 1)
  let j : Job := ⟨free.getD 0 + 1, pids.map (·, none), false⟩
  set { s with jobs := j :: jobs }
  pure j

/-! ### Waiting -/

/-- Takes note of processes that have ended; `loud` is the job whose processes are worth a remark. The
end of a process takes some time to become known: only who has waited for it knows at once. -/
def collect (loud : Option Nat) (hasWaited : Bool) : Sh Unit := do
  let gone ← Sh.code (Code.call fun id s => s.reapAll id hasWaited)
  gone.forM fun (pid, e) => do
    let s ← get
    match s.jobs.find? fun j => j.awaited.contains pid with
    | none   => pure ()
    | some j => do
      set { s with jobs := s.jobs.map fun (i : Job) => if i.id = j.id then i.note pid e else i }
      match remark? e with
      | some text => if loud = some j.id then Sh.tell 2 (text ++ "\n")
      | none      => pure ()

/-- Waits until one of some processes has ended or, if that counts, a signal has come in; false in the
latter case. -/
def pause (pids : List Nat) (yields : Bool) : Sh Bool :=
  Sh.code (Code.await fun id s =>
    if pids.any fun p => (s.running? p).isNone then some (true, s)
    else if yields && (s.alert? id).isSome then some (false, s)
    else none)

/-- Waits until a job is done; false if a signal came in between. At most `k` processes are waited
for. -/
def waitFor (yields : Bool) (id : Nat) : Nat → Sh Bool
  | 0     => pure true
  | k + 1 => do
    match (← get).jobs.find? (·.id = id) with
    | none   => pure true
    | some j =>
      if j.isDone then pure true
      else if ← pause j.awaited yields then do
        collect (some id) true
        waitFor yields id k
      else pure false

/-- Waits for a job, forgets it and gives its status. -/
def finish (j : Job) : Sh Nat := do
  let _ ← waitFor false j.id (j.members.length + 1)
  let s ← get
  let status := ((s.jobs.find? (·.id = j.id)).map Job.status).getD 0
  set { s with jobs := s.jobs.filter (·.id != j.id) }
  pure status

end Job

end Shell

end Assay
