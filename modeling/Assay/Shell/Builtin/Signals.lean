import Assay.Shell.Builtin.Basic
import Assay.Shell.Job

/-!
# Shell — parts that deal with processes

Sending signals, saying what is done on them, and waiting for processes.

* `Signals.kill`, `Signals.trap`, `Signals.wait`, `Signals.jobs`.
-/

namespace Assay.Shell.Builtin.Signals

/-- The signal that a number or a name stands for. Zero may have a name too. -/
def signalOf? (least : Nat) (a : String) : Option Nat :=
  if !a.isEmpty && a.toList.all Char.isDigit then (a.toNat?).filter (· < Signal.count)
  else (Signal.ofName? a).filter (least ≤ ·)

/-! ### Jobs by name -/

/-- The job that a percent sign and what follows it stand for. -/
def jobOf (a : String) : Sh Job := do
  let s ← get
  let none' : Sh Job := Sh.fail ("No such job: " ++ a)
  let current : Sh Job :=
    match s.jobs with
    | j :: _ => pure j
    | []     => Sh.fail "No current job"
  match a.toList with
  | ['%'] | ['%', '%'] | ['%', '+'] => current
  | ['%', '-']                      =>
    match s.jobs with
    | _ :: j :: _ => pure j
    | _           => Sh.fail "No previous job"
  | '%' :: cs                       =>
    match (String.ofList cs).toNat? with
    | some n => (s.jobs.find? (·.id = n)).elim none' pure
    | none   => none'
  | _                               => none'

/-- What is said of a job. -/
def describe (s : State) (withNumbers : Bool) (j : Job) : String :=
  let place :=
    match s.jobs with
    | a :: b :: _ => if a.id = j.id then "+" else if b.id = j.id then "-" else " "
    | _           => "+"
  let head := "[" ++ toString j.id ++ "] " ++ place ++ " "
  let first := (j.members.head?.map (·.1)).getD 0
  let head := if withNumbers then head ++ toString first ++ " " else head
  let state :=
    if !j.isDone then "Running"
    else
      match (j.members.getLast?.bind (·.2)).getD (.code 0) with
      | .code 0   => "Done"
      | .code n   => "Done(" ++ toString n ++ ")"
      | .signal n => Signal.description n.toNat
      | .unknown  => ""
  let text := head ++ state
  let padded := text ++ String.ofList (List.replicate (max 1 (33 - text.length)) ' ')
  let others := j.members.drop 1
  if withNumbers then
    let indent := String.ofList (List.replicate (head.length - (toString first).length - 1) ' ')
    padded ++ String.join (others.map fun m =>
      let line := " |\n" ++ indent ++ toString m.1 ++ " "
      line ++ String.ofList (List.replicate (33 - (line.length - 3)) ' ')) ++ "\n"
  else padded ++ String.join (others.map fun _ => " | ") ++ "\n"

/-- Shows jobs; those that are done are forgotten then. -/
def jobs : Part := fun _ args => do
  let (letters, names) ← options "lp" args
  Job.collect none false
  let s ← get
  let shown (j : Job) : Sh String := do
    let s ← get
    match letters.getLast? with
    | some ('p', _) => pure (toString ((j.members.head?.map (·.1)).getD 0) ++ "\n")
    | letter        => do
      if j.isDone then
        set { s with jobs := s.jobs.filter fun (i : Job) => i.id ≠ j.id }
      pure (describe s letter.isSome j)
  if names.isEmpty then do say (String.join (← s.jobs.mapM shown))
  else do say (String.join (← names.mapM fun a => do shown (← jobOf a)))

/-- There is no terminal that a job could be brought to. -/
def foreground : Part := fun _ args => do
  let a := args.headD "%+"
  let j ← jobOf a
  Sh.fail ("job " ++ (if args.isEmpty then "(null)" else toString j.id) ++
    " not created under job control")

/-! ### Waiting -/

/-- Waits for the jobs that some numbers or names stand for. -/
def waitForEach : Nat → List String → Sh Nat
  | status, []     => pure status
  | _, a :: r => do
    let chosen ←
      if a.toList.head? = some '%' then do pure (some (← jobOf a))
      else do
        let pid ← Sh.number a
        let s ← get
        pure (s.jobs.find? fun j => (j.members.getLast?.map (·.1)) = some pid)
    match chosen with
    | none   => waitForEach 127 r
    | some j => do
      if ← Job.waitFor true j.id (j.members.length + 1) then do
        let s ← get
        modify fun s => { s with
          jobs := s.jobs.map fun (i : Job) => if i.id = j.id then { i with isKnown := true } else i }
        waitForEach (((s.jobs.find? (·.id = j.id)).map Job.status).getD 127) r
      else interrupted
where
  /-- The status of a wait that a signal broke off. -/
  interrupted : Sh Nat := do
    let first ← Sh.code (Code.look fun id s => s.alert? id)
    pure (128 + first.getD 0)

/-- Waits until all jobs are done. -/
def waitForAll : Nat → Sh Nat
  | 0     => pure 0
  | k + 1 => do
    let s ← get
    let running := s.jobs.filter fun j => !j.isDone
    if running.isEmpty then do
      modify fun s => { s with jobs := s.jobs.map fun (j : Job) => { j with isKnown := true } }
      pure 0
    else if ← Job.pause (running.flatMap Job.awaited) true then do
      Job.collect none true
      waitForAll k
    else waitForEach.interrupted

def wait : Part := fun _ args => do
  let (_, names) ← options "" args
  let s ← get
  let total := (s.jobs.map fun j => j.members.length).foldl (· + ·) 0
  pure ⟨← if names.isEmpty then waitForAll (total + 1) else waitForEach 127 names, ""⟩

/-! ### Signals -/

def usage : String :=
  "Usage: kill [-s sigspec | -signum | -sigspec] [pid | job]... or\nkill -l [exitstatus]"

/-- Sends a signal to what a number or the name of a job stands for. -/
def sendTo (signal : Nat) (status : Nat) (a : String) : Sh Nat := do
  let target : Int ←
    match a.toList with
    | '%' :: _  => do
      let j ← jobOf a
      pure (-(((j.members.head?.map (·.1)).getD 0 : Nat) : Int))
    | '-' :: cs => do pure (-((← Sh.number (String.ofList cs) : Nat) : Int))
    | _         => do pure ((← Sh.number a : Nat) : Int)
  match ← Sh.code (Code.call fun _ s =>
      match s.signal target signal with
      | .ok s      => (none, s)
      | .error why => (some why, s)) with
  | none     => pure status
  | some why => do
    Sh.warn (why.text ++ "\n")
    pure 1

def nameList : String :=
  "0\n" ++ String.join ((List.range (Signal.count - 1)).map fun n => Signal.name (n + 1) ++ "\n")

/-- Names a signal by its number or by the status of a process that it ended. -/
def nameOf (a : String) : Sh Answer := do
  let n ← Sh.number a
  let n := if 128 < n then n - 128 else n
  if 0 < n && n < Signal.count then say (Signal.name n ++ "\n")
  else Sh.fail ("invalid signal number or exit status: " ++ a)

def kill : Part := fun _ args => do
  let first := args.headD ""
  let direct := if first.startsWith "-" then signalOf? 0 (String.ofList (first.toList.drop 1)) else none
  let (letters, targets) ←
    match direct with
    | some _ => pure ([], args.drop 1)
    | none   => if args.isEmpty then Sh.fail usage else options "ls:" args
  let stated ←
    match letters.reverse.find? (·.1 = 's') with
    | none        => pure direct
    | some (_, a) =>
      match signalOf? 0 a with
      | some n => pure (some n)
      | none   => Sh.fail ("invalid signal number or name: " ++ a)
  let lists := letters.any (·.1 = 'l')
  if lists then
    if stated.isSome then Sh.fail usage
    else
      match targets with
      | []     => say nameList
      | a :: _ => nameOf a
  else if targets.isEmpty then Sh.fail usage
  else pure ⟨← targets.foldlM (sendTo (stated.getD Signal.terminate)) 0, ""⟩

/-! ### Traps -/

def trapListing (s : State) : String :=
  let all := (List.range Signal.count).filterMap fun n => (s.traps.lookup n).map fun t => (n, t)
  String.join (all.map fun (n, t) => "trap -- " ++ quoted t ++ " " ++ Signal.name n ++ "\n")

/-- Says what is done on a signal. -/
def setTrap (action : Option String) (n : Nat) : Sh Unit := do
  let s ← get
  let others := s.traps.filter (·.1 ≠ n)
  set { s with traps := action.elim others fun t => (n, t) :: others }
  if n = 0 || s.deaf.contains n then pure ()
  else
    let ignores := action = some ""
    let catches := action.isSome && !ignores
    Sh.code (Code.change fun id sys => sys.heed id n ignores catches)

/-- Says the same of some signals; those behind a wrong one are left as they are. -/
def setTraps (action : Option String) : List String → Sh Answer
  | []     => done
  | a :: r =>
    match signalOf? 0 a with
    | none   => do
      Sh.tell 2 ("trap: " ++ a ++ ": bad trap\n")
      pure ⟨1, ""⟩
    | some n => do
      setTrap action n
      setTraps action r

def trap : Part := fun _ args => do
  let (_, args) ← options "" args
  match args with
  | []          => do say (trapListing (← get))
  | [a]         => setTraps none [a]
  | action :: r =>
    if !action.isEmpty && action.toList.all Char.isDigit && (signalOf? 0 action).isSome then
      setTraps none (action :: r)
    else setTraps (if action = "-" then none else some action) r

end Assay.Shell.Builtin.Signals
