import Assay.Process.Stream

/-!
# Process — how processes come and go

A process makes others that are like itself, becomes another program, waits for those it made and
sends signals.

* `System.fork`, `System.become`, `System.reap`, `System.signal`.
-/

namespace Assay.System

/-- Makes a process that is like another but for its number. -/
def fork (s : System) (id : Nat) : Nat × System :=
  match s.process? id with
  | none   => (s.next, s)
  | some p =>
    (s.next, { s with
      processes := s.processes ++ [{ p with id := s.next, parent := id, pending := [], alert := none }]
      next := s.next + 1 })

/-- What stays of a process that another program takes over: open ends that are not private, and
the signals that do nothing. -/
def become (s : System) (id : Nat) (i : Image) : System :=
  { s with started := i :: s.started }.modify id fun p =>
    { p with
      descriptors := p.descriptors.filter fun d => !d.2.isPrivate
      caught := []
      pending := []
      alert := none }

/-- The children of a process that it has not been told the end of. -/
def children (s : System) (id : Nat) : List Process := s.processes.filter (·.parent == id)

/-- Takes note of the end of a child, the first of those that fit; none if there is no such child
or all of them still run. -/
def reap (s : System) (id : Nat) (fits : Nat → Bool) : Option ((Nat × Exit) × System) :=
  (s.children id).findSome? fun p =>
    if fits p.id then
      p.ended.map fun e => ((p.id, e), { s with processes := s.processes.filter (·.id != p.id) })
    else none

/-- Sends a signal to a process or to all of them. -/
def signal (s : System) (id : Int) (n : Nat) : Except Errno System :=
  if id = 0 ∨ id = -1 then .ok ((s.processes.map (·.id)).foldl (fun s p => s.send p n) s)
  else if id < 0 then .error .noProcess
  else
    match s.process? id.toNat with
    | some _ => .ok (s.send id.toNat n)
    | none   => .error .noProcess

/-- Decides what a signal does to a process. -/
def heed (s : System) (id n : Nat) (ignores catches : Bool) : System :=
  s.modify id fun p =>
    { p with
      ignored := if ignores then n :: p.ignored.erase n else p.ignored.erase n
      caught := if catches then n :: p.caught.erase n else p.caught.erase n }

/-- Takes the signal with the lowest number that a process has yet to deal with. -/
def takeSignal (s : System) (id : Nat) : Option Nat × System :=
  match ((s.process? id).map (·.pending)).bind List.min? with
  | some n => (some n, s.modify id fun p => { p with pending := p.pending.erase n })
  | none   => (none, s)

/-- The last signal that came in since a process began to deal with them. -/
def alert? (s : System) (id : Nat) : Option Nat := (s.process? id).bind (·.alert)

def setAlert (s : System) (id : Nat) (signal : Option Nat) : System :=
  s.modify id fun p => { p with alert := signal }

/-- Asks for the process to go on after some nanoseconds. -/
def setAlarm (s : System) (after : Nat) : Nat × System :=
  (s.clock + after, { s with alarms := (s.clock + after) :: s.alarms })

/-- The next moment at which somebody wants to go on. -/
def nextAlarm? (s : System) : Option Nat :=
  (s.alarms.filter (s.clock < ·)).foldl (fun least t =>
    some (least.elim t fun u => min t u)) none

end Assay.System
