import Assay.Task

/-!
# Run — a pool of workers under a number of permits

Every worker has one task on a shared state. It asks for a permit, holds it while its task takes
its steps, sends the result and gives the permit back. A worker whose task dies ends without
sending, and so does one that is cut off, which may happen at any point. Permits go to the workers
in the order in which they ask. A collector takes the results off the channel, one at a time, and
puts each on the board at the seat of its worker.

* `Pool.apply`: what an event does, none if it cannot happen now.
* `Pool.Reachable`: the pools that some sequence of events leads to.
* `Pool.play`: a pool after a schedule of events, those that cannot happen left out.
* `Pool.drain`: a pool played to its end, always with the first worker that can go on.
-/

namespace Assay

/-- The place of a result: the number of its suite, and its own number there. -/
structure Seat where
  suite : Nat
  fixture : Nat
  deriving DecidableEq, Repr

/-- The results that have come in, by seat, and how many are still to come in each suite. -/
structure Board (ρ : Type) where
  slots : List (List (Option ρ))
  remaining : List Nat

namespace Board

variable {ρ : Type}

/-- A board without results, for suites of these sizes. -/
def ofSizes (sizes : List Nat) : Board ρ := ⟨sizes.map (List.replicate · none), sizes⟩

def get? (b : Board ρ) (s : Seat) : Option ρ := do (← (← b.slots[s.suite]?)[s.fixture]?)

/-- Puts a result at its seat and counts it. -/
def put (b : Board ρ) (s : Seat) (r : ρ) : Board ρ where
  slots := b.slots.modify s.suite (·.set s.fixture (some r))
  remaining := b.remaining.modify s.suite (· - 1)

end Board

/-- How far a worker has come. -/
inductive Phase (σ ρ : Type) where
  | spawned (t : Task σ ρ)
  | waiting (t : Task σ ρ)
  /-- Holds a permit. -/
  | running (t : Task σ ρ)
  /-- Has ended, with the result that it sent, if it sent one. -/
  | ended (sent : Option ρ)

structure Worker (σ ρ : Type) where
  seat : Seat
  phase : Phase σ ρ

structure Pool (σ ρ : Type) where
  shared : σ
  /-- Permits that nobody holds. -/
  free : Nat
  /-- The workers that wait for a permit, by number, in the order in which they asked. -/
  queue : List Nat
  workers : List (Worker σ ρ)
  /-- Results on their way. -/
  channel : List (Seat × ρ)
  board : Board ρ

namespace Pool

variable {σ ρ : Type}

inductive Event where
  /-- A worker asks for its permit. -/
  | ask (i : Nat)
  /-- A worker takes the next step of its task. -/
  | advance (i : Nat)
  /-- A worker whose task is at its end sends the result, if there is one, and ends. -/
  | finish (i : Nat)
  /-- A worker is cut off and ends without a result. -/
  | die (i : Nat)
  /-- The collector takes a result. -/
  | receive
  deriving DecidableEq, Repr

/-- The most results that may be on their way: one for each worker, and never none at all. -/
def capacity (p : Pool σ ρ) : Nat := max p.workers.length 1

def setPhase (p : Pool σ ρ) (i : Nat) (phase : Phase σ ρ) : Pool σ ρ :=
  { p with workers := p.workers.modify i fun w => { w with phase := phase } }

/-- Lets a worker that waits go on, if it does wait. -/
def wake (p : Pool σ ρ) (i : Nat) : Pool σ ρ :=
  { p with
    workers := p.workers.modify i fun w =>
      match w.phase with
      | .waiting t => { w with phase := .running t }
      | _          => w }

/-- Gives a permit back: to the first that waits, or to nobody. -/
def release (p : Pool σ ρ) : Pool σ ρ :=
  match p.queue with
  | []     => { p with free := p.free + 1 }
  | i :: q => { p with queue := q }.wake i

/-- The pool after an event, none if it cannot happen. -/
def apply (p : Pool σ ρ) : Event → Option (Pool σ ρ)
  | .ask i =>
    match p.workers[i]? with
    | some ⟨_, .spawned t⟩ =>
      match p.free with
      | 0     => some { p.setPhase i (.waiting t) with queue := p.queue ++ [i] }
      | k + 1 => some { p.setPhase i (.running t) with free := k }
    | _ => none
  | .advance i =>
    match p.workers[i]? with
    | some ⟨_, .running (.step effect next)⟩ =>
      some { p.setPhase i (.running (next p.shared)) with shared := effect p.shared }
    | _ => none
  | .finish i =>
    match p.workers[i]? with
    | some ⟨seat, .running (.done r)⟩ =>
      if p.channel.length < p.capacity then
        some { p.setPhase i (.ended (some r)) with channel := p.channel ++ [(seat, r)] }.release
      else none
    | some ⟨_, .running .dead⟩ => some (p.setPhase i (.ended none)).release
    | _ => none
  | .die i =>
    match p.workers[i]? with
    | some ⟨_, .spawned _⟩ => some (p.setPhase i (.ended none))
    | some ⟨_, .waiting _⟩ => some { p.setPhase i (.ended none) with queue := p.queue.erase i }
    | some ⟨_, .running _⟩ => some (p.setPhase i (.ended none)).release
    | _                    => none
  | .receive =>
    match p.channel with
    | (seat, r) :: rest => some { p with channel := rest, board := p.board.put seat r }
    | []                => none

/-- The pools that events lead to from a given one. -/
inductive Reachable (start : Pool σ ρ) : Pool σ ρ → Prop where
  | refl : Reachable start start
  | more {p q : Pool σ ρ} {e : Event} (h : Reachable start p) (s : p.apply e = some q) :
      Reachable start q

/-- Whether every worker has ended and every result is on the board. -/
def finished (p : Pool σ ρ) : Bool :=
  p.channel.isEmpty && p.workers.all fun w => match w.phase with
    | .ended _ => true
    | _        => false

/-- Applies a schedule, leaving out what cannot happen. -/
def play (p : Pool σ ρ) (schedule : List Event) : Pool σ ρ :=
  schedule.foldl (fun p e => (p.apply e).getD p) p

/-! ### To the end -/

/-- Plays a task that a worker runs to its end, and ends the worker. -/
def complete (p : Pool σ ρ) (i : Nat) : Task σ ρ → Pool σ ρ
  | .step _ next => complete (p.play [.advance i]) i (next p.shared)
  | .done _      => p.play [.finish i, .receive]
  | .dead        => p.play [.finish i]

/-- The number of a worker in a given phase, the first if there are several, and its task. -/
def firstTask (pick : Phase σ ρ → Option (Task σ ρ)) (p : Pool σ ρ) : Option (Nat × Task σ ρ) :=
  p.workers.zipIdx.findSome? fun w => (pick w.1.phase).map fun t => (w.2, t)

/-- Plays one worker to its end or, if none runs, lets one ask for its permit. -/
def round (p : Pool σ ρ) : Pool σ ρ :=
  match p.firstTask fun | .running t => some t | _ => none with
  | some (i, t) => p.complete i t
  | none =>
    match p.firstTask fun | .spawned t => some t | _ => none with
    | some (i, _) => p.play [.ask i]
    | none        => p

/-- Plays everything to the end: each worker has at most a round to ask in and one to run in. -/
def drain (p : Pool σ ρ) : Pool σ ρ :=
  let p := (List.range (2 * p.workers.length)).foldl (fun p _ => p.round) p
  p.play (p.channel.map fun _ => .receive)

end Pool

end Assay
