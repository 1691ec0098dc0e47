import Assay.Process.System

/-!
# Process — descriptors and what goes through them

Opening, reading, writing and copying of descriptors. A read from a pipe waits for data as long as
somebody may write to it, a write waits for room; writing where nobody will read ends the writer
unless it wants to know. An answer of none means that the process has to wait.

* `System.openPath`, `System.read`, `System.write`.
-/

namespace Assay

/-- What a path is opened for. -/
inductive Purpose where
  | read
  /-- To write from the start, what was there being lost. -/
  | write
  /-- To write a file that is not there yet. -/
  | create
  | append
  /-- To read and write what is there. -/
  | update
  deriving DecidableEq, Repr

namespace Purpose

def reads : Purpose → Bool
  | .read | .update => true
  | _               => false

def writes : Purpose → Bool
  | .read => false
  | _     => true

end Purpose

namespace System

/-- The bytes that a pipe holds before writers have to wait. -/
def pipeLimit : Nat := 65536

/-- The most that is read at once from what has no end. -/
def blockSize : Nat := 65536

/-! ### Descriptors -/

def hold (s : System) (id fd : Nat) (h : Held) : System :=
  s.modify id fun p =>
    { p with descriptors := (fd, h) :: p.descriptors.filter fun d => d.1 != fd }

def close (s : System) (id fd : Nat) : System :=
  s.modify id fun p => { p with descriptors := p.descriptors.filter fun d => d.1 != fd }

def held? (s : System) (id fd : Nat) : Option Held :=
  (s.process? id).bind fun p => p.descriptors.lookup fd

/-- The lowest free descriptor from some number on. -/
def lowest (s : System) (id least : Nat) : Nat :=
  match s.process? id with
  | none   => least
  | some p =>
    let fds := p.descriptors.map (·.1)
    ((List.range (fds.length + 1)).find? fun k => !fds.contains (least + k)).elim least (least + ·)

def addOpening (s : System) (o : Opening) : Nat × System :=
  (s.next, { s with openings := (s.next, o) :: s.openings, next := s.next + 1 })

/-- The two ends of a new pipe, the one to read from first. -/
def addPipe (s : System) : (Nat × Nat) × System :=
  let n := s.next
  let s := { s with pipes := (n, {}) :: s.pipes, next := n + 1 }
  let (outlet, s) := s.addOpening ⟨.outlet n, true, false, false, 0⟩
  let (inlet, s) := s.addOpening ⟨.inlet n, false, true, false, 0⟩
  ((outlet, inlet), s)

/-! ### Opening -/

/-- The descriptor that a path stands for. -/
def descriptorPath? (p : Path) : Option Nat :=
  let number (cs : List Char) : Option Nat :=
    if cs.isEmpty ∨ !cs.all Char.isDigit then none else (String.ofList cs).toNat?
  match p.display with
  | "/dev/stdin"  => some 0
  | "/dev/stdout" => some 1
  | "/dev/stderr" => some 2
  | text          =>
    if text.startsWith "/dev/fd/" then number (text.toList.drop 8)
    else if text.startsWith "/proc/self/fd/" then number (text.toList.drop 14)
    else none

/-- An open end at a place that something stands at. -/
def openEntry (s : System) (purpose : Purpose) (l : Loc) (e : Entry) :
    Except Fault (Opening × System) :=
  let opening (c : Channel) : Opening :=
    ⟨c, purpose.reads, purpose.writes, purpose = .append, 0⟩
  match e, purpose with
  | .device d, _           => .ok (opening (.device d), s)
  | .dir, .read            => .ok (opening (.dir l), s)
  | .dir, _                => .error (.os .isDirectory)
  | .link _, _             => .error (.os .tooManyLinks)
  | .file _, .create       => .error (.os .exists)
  | .file f, .write        => do
    let files ← match l with
      | n :: d => s.files.put n d (.file ⟨[], f.executable⟩)
      | []     => pure s.files
    pure (opening (.file l), { s with files := { files with cwd := s.files.cwd } })
  | .file _, _             => .ok (opening (.file l), s)

/-- Opens a path for a process. -/
def openPath (s : System) (id : Nat) (p : Path) (purpose : Purpose) :
    Except Fault (Nat × System) := do
  match descriptorPath? p with
  | some fd =>
    match s.opening? id fd with
    | none        => throw (.os .notFound)
    | some (_, o) =>
      pure (s.addOpening { o with
        readable := purpose.reads, writable := purpose.writes, appends := purpose = .append,
        position := 0 })
  | none =>
    let fs := s.filesOf id
    match ← fs.resolve (if purpose.writes then .write else .find true) p with
    | .occupied l e =>
      let (o, s) ← s.openEntry purpose l e
      pure (s.addOpening o)
    | .vacant n d   =>
      if purpose.writes then
        let files ← s.files.put n d (.file ⟨[], false⟩)
        let o : Opening :=
          ⟨.file (n :: d), purpose.reads, purpose.writes, purpose = .append, 0⟩
        pure ({ s with files := files }.addOpening o)
      else throw (.os .notFound)

/-! ### Reading -/

/-- The front of some bytes, up to a certain one or all of them, and the rest. -/
def cut (stop : Option UInt8) (bs : Bytes) : Bytes × Bytes :=
  match stop with
  | none   => (bs, [])
  | some b =>
    match bs.span (· != b) with
    | (line, c :: rest) => (line ++ [c], rest)
    | (line, [])        => (line, [])

/-- Reads what there is, up to a certain byte if one is given; nothing means that there is no more
to come. -/
def read (s : System) (id fd : Nat) (stop : Option UInt8) :
    Option (Except Errno Bytes × System) :=
  match s.opening? id fd with
  | none        => some (.error .badDescriptor, s)
  | some (n, o) =>
    if !o.readable then some (.error .badDescriptor, s)
    else
      match o.channel with
      | .kept _ | .inlet _ => some (.error .badDescriptor, s)
      | .dir _             => some (.error .isDirectory, s)
      | .device .null      => some (.ok [], s)
      | .device _          => some (.ok (List.replicate blockSize 0), s)
      | .file l            =>
        match s.files.get? l with
        | some (.file f) =>
          let (chunk, _) := cut stop (f.content.drop o.position)
          some (.ok chunk, s.setOpening n { o with position := o.position + chunk.length })
        | _ => some (.ok [], s)
      | .outlet k          =>
        match s.pipes.lookup k with
        | none   => some (.ok [], s)
        | some p =>
          if p.chunks.isEmpty then
            if s.hasWriter k then none else some (.ok [], s)
          else
            let (chunk, rest) := cut stop p.chunks.reverse.flatten
            let left : Pipe := ⟨if rest.isEmpty then [] else [rest], p.size - chunk.length⟩
            some (.ok chunk, s.setPipe k left)

/-! ### Signals to a process -/

/-- Puts a signal among those that a process has yet to deal with, if it deals with it at all. -/
def enqueue (s : System) (id signal : Nat) : System :=
  s.modify id fun p =>
    if p.ended.isNone && p.caught.contains signal then
      { p with pending := signal :: p.pending.erase signal, alert := some signal }
    else p

/-- Ends a process; what it held is closed and its maker is told. -/
def finish (s : System) (id : Nat) (e : Exit) : System :=
  let parent := (s.process? id).map (·.parent)
  let s := s.modify id fun p =>
    { p with ended := some e, endedAt := s.clock, descriptors := [] }
  parent.elim s fun p => s.enqueue p Signal.childEnded

/-- Sends a signal to a process. -/
def send (s : System) (id signal : Nat) : System :=
  match s.running? id with
  | none   => s
  | some p =>
    let s := if signal = Signal.resume then s.modify id fun p => { p with isStopped := false } else s
    if signal = 0 then s
    else if Signal.isCatchable signal && p.ignored.contains signal then s
    else if Signal.isCatchable signal && p.caught.contains signal then s.enqueue id signal
    else
      match Signal.reaction signal with
      | .ends    => s.finish id (.signal signal)
      | .stops   => s.modify id fun p => { p with isStopped := true }
      | .resumes => s
      | .nothing => s

/-! ### Writing -/

/-- Bytes with others put in at a position; a gap before them is filled with zeros. -/
def overlay (content : Bytes) (position : Nat) (data : Bytes) : Bytes :=
  if position = content.length then content ++ data
  else
    let front := content.take position
    front ++ List.replicate (position - front.length) 0 ++ data ++
      content.drop (position + data.length)

/-- Writes bytes. -/
def write (s : System) (id fd : Nat) (data : Bytes) : Option (Except Errno Unit × System) :=
  match s.opening? id fd with
  | none        => some (.error .badDescriptor, s)
  | some (n, o) =>
    if !o.writable then some (.error .badDescriptor, s)
    else if data.isEmpty then some (.ok (), s)
    else
      match o.channel with
      | .outlet _ | .dir _ => some (.error .badDescriptor, s)
      | .kept false        => some (.ok (), { s with out := data :: s.out })
      | .kept true         => some (.ok (), { s with err := data :: s.err })
      | .device .full      => some (.error .noSpace, s)
      | .device _          => some (.ok (), s)
      | .file l            =>
        match l, s.files.get? l with
        | m :: d, some (.file f) =>
          let position := if o.appends then f.content.length else o.position
          let file : File := ⟨overlay f.content position data, f.executable⟩
          match s.files.put m d (.file file) with
          | .ok files =>
            some (.ok (), { s with files := files }.setOpening n
              { o with position := position + data.length })
          | .error _  => some (.ok (), s)
        | _, _ => some (.ok (), s)
      | .inlet k           =>
        match s.pipes.lookup k with
        | none   => some (.error .brokenPipe, s)
        | some p =>
          if !s.hasReader k then
            some (.error .brokenPipe, s.send id Signal.brokenPipe)
          else if pipeLimit ≤ p.size then none
          else some (.ok (), s.setPipe k ⟨data :: p.chunks, p.size + data.length⟩)

end System

end Assay
