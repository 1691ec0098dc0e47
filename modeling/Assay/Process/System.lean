import Assay.Process.Image
import Assay.Process.Signal

/-!
# Process — the processes of a run and what they share

A system holds the files, the open ends of streams, the pipes, the time gone and the processes. A
process refers to open ends by descriptors; several descriptors, also of several processes, may
refer to one open end and then share its position.

* `System.running?`: a process that has not ended.
* `System.isOpen`: whether some process still holds an end of a given kind.
-/

namespace Assay

/-- What an open end leads to. -/
inductive Channel where
  /-- One of the two streams of the run, which keep what is written to them. -/
  | kept (isError : Bool)
  | device (d : Device)
  /-- The end of a pipe that is written to. -/
  | inlet (pipe : Nat)
  /-- The end of a pipe that is read from. -/
  | outlet (pipe : Nat)
  | file (l : Loc)
  | dir (l : Loc)
  deriving DecidableEq, Repr

/-- An open end. -/
structure Opening where
  channel : Channel
  readable : Bool
  writable : Bool
  /-- Whether everything is written behind what a file holds. -/
  appends : Bool := false
  position : Nat := 0
  deriving DecidableEq, Repr

/-- What a descriptor refers to. -/
structure Held where
  opening : Nat
  /-- Whether it is closed when another program takes the process over. -/
  isPrivate : Bool := false
  deriving DecidableEq, Repr

/-- What was written to a pipe and is not read yet. -/
structure Pipe where
  /-- Newest first. -/
  chunks : List Bytes := []
  size : Nat := 0
  deriving DecidableEq, Repr

structure Process where
  id : Nat
  parent : Nat
  descriptors : List (Nat × Held) := []
  /-- Where its relative paths start. -/
  directory : Loc
  /-- The permissions that its new files do not get. -/
  mask : Nat := 0o022
  /-- The signals that do nothing to it. -/
  ignored : List Nat := []
  /-- The signals that it deals with itself, and those it has yet to deal with. -/
  caught : List Nat := []
  pending : List Nat := []
  /-- The last signal that came in since it began to deal with them. -/
  alert : Option Nat := none
  isStopped : Bool := false
  ended : Option Exit := none
  /-- The moment of its end. -/
  endedAt : Nat := 0
  deriving DecidableEq, Repr

structure System where
  files : FileSystem
  /-- The nanoseconds gone, and the moments at which somebody wants to go on. -/
  clock : Nat := 0
  alarms : List Nat := []
  openings : List (Nat × Opening) := []
  pipes : List (Nat × Pipe) := []
  processes : List Process
  /-- The next number for an open end, a pipe or a process. -/
  next : Nat
  /-- What was written to the streams of the run, newest first. -/
  out : List Bytes := []
  err : List Bytes := []
  /-- The programs started, newest first. -/
  started : List Image := []

namespace System

def process? (s : System) (id : Nat) : Option Process := s.processes.find? (·.id == id)

/-- A process that has not ended. -/
def running? (s : System) (id : Nat) : Option Process :=
  (s.process? id).filter (·.ended.isNone)

def modify (s : System) (id : Nat) (f : Process → Process) : System :=
  { s with processes := s.processes.map fun p => if p.id = id then f p else p }

/-- The files as a process sees them. -/
def filesOf (s : System) (id : Nat) : FileSystem :=
  match s.process? id with
  | some p => { s.files with cwd := p.directory }
  | none   => s.files

/-- The open end behind a descriptor of a process, and its number. -/
def opening? (s : System) (id fd : Nat) : Option (Nat × Opening) := do
  let p ← s.process? id
  let h ← p.descriptors.lookup fd
  let o ← s.openings.lookup h.opening
  pure (h.opening, o)

def setOpening (s : System) (n : Nat) (o : Opening) : System :=
  { s with openings := s.openings.map fun e => if e.1 = n then (n, o) else e }

/-- Whether a process that has not ended holds an open end of some kind. -/
def isOpen (s : System) (kind : Channel → Bool) : Bool :=
  s.processes.any fun p =>
    p.ended.isNone && p.descriptors.any fun d =>
      (s.openings.lookup d.2.opening).any fun o => kind o.channel

/-- Whether anybody may still write to the streams of the run. -/
def isListening (s : System) : Bool :=
  s.isOpen fun
    | .kept _ => true
    | _       => false

def hasReader (s : System) (pipe : Nat) : Bool := s.isOpen (· == .outlet pipe)

def hasWriter (s : System) (pipe : Nat) : Bool := s.isOpen (· == .inlet pipe)

/-- Puts what was written to a pipe in place of what it held. -/
def setPipe (s : System) (n : Nat) (p : Pipe) : System :=
  { s with pipes := s.pipes.map fun e => if e.1 = n then (n, p) else e }

/-- Everything written to the output of the run. -/
def outBytes (s : System) : Bytes := s.out.reverse.flatten

def errBytes (s : System) : Bytes := s.err.reverse.flatten

end System

end Assay
