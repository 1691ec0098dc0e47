import Assay.Shell.Builtin.Place
import Assay.Shell.Builtin.Reading
import Assay.Shell.Builtin.Signals
import Assay.Utility.Condition
import Assay.Utility.Echo
import Assay.Utility.Printf

/-!
# Shell — running commands

What a shell does for each kind of command. Every piece takes a runner for the commands inside it, so
that the whole is put together at the end from pieces that do not know one another.

* `evaluate`: runs a command.
* `conclude`: the end of a shell, whatever brought it about.
-/

namespace Assay.Shell

/-- What is known of what stands behind a command. -/
structure Outlook where
  /-- Whether nothing is left to be done behind it. -/
  exits : Bool := false
  /-- Whether somebody looks at its status. -/
  tested : Bool := false
  deriving DecidableEq, Repr

abbrev Runner := Outlook → Command → Sh Nat

/-- The steps of a loop or the commands of a script that there may be. -/
def roundLimit : Nat := 1000000000

/-- Functions that may be running at once. -/
def depthLimit : Nat := 1000

/-! ### Scripts -/

/-- Runs the commands of a script one after the other. `last` is the outlook of a command behind which
nothing stands. -/
def runSource (run : Runner) (last : Outlook) : Nat → Nat → Source → Sh Nat
  | 0, status, _       => pure status
  | k + 1, status, src => do
    let s ← get
    let src := { src with aliases := s.aliases, texts := s.texts, nextText := s.nextText }
    match next src with
    | .error c   => do
      modify fun s => { s with line := c.line }
      Sh.fail ("Syntax error: " ++ c.message)
    | .ok front  => do
      set { s with
        texts := front.source.texts, nextText := front.source.nextText
        readLine := front.source.line }
      if s.has 'v' && s.isFile then
        let n := src.rest.length - front.source.rest.length
        Sh.tell 2 (String.ofList (src.rest.take n))
      match front.command with
      | none   => pure status
      | some c => do
        let result ← run { last with exits := last.exits && front.isLast } c
        let status :=
          match c with
          | .nothing => status
          | _        => result
        if (← get).skip.isSome then pure status
        else runSource run last k status front.source

/-- Runs a text as a script. -/
def runText (run : Runner) (last : Outlook) (text : String) : Sh Nat := do
  let s ← get
  let isFile := s.isFile
  set { s with isFile := false }
  let status ← runSource run last roundLimit 0 (s.source text)
  modify fun t => { t with isFile := isFile, readLine := s.readLine }
  pure status

/-- Runs a text as a file: a `return` in it ends the file. -/
def runFile (run : Runner) (text : String) : Sh Nat := do
  let s ← get
  let isFile := s.isFile
  set { s with isFile := true }
  let status ← runSource run {} roundLimit 0 (s.source text)
  modify fun t => { t with
    isFile := isFile
    readLine := s.readLine
    skip :=
      match t.skip with
      | some (.finish _) => none
      | other            => other }
  pure status

/-! ### Signals and the end -/

/-- Does what is to be done on the signals that have come in. -/
def attendTo (run : Runner) (status : Nat) : Nat → Sh Unit
  | 0     => pure ()
  | k + 1 => do
    if (← get).skip.isSome then
      Sh.code (Code.change fun id s =>
        s.setAlert id (((s.process? id).map (·.pending)).bind List.min?))
    else
      match ← Sh.code (Code.call fun id s => s.takeSignal id) with
      | none   => pure ()
      | some n => do
        match (← get).traps.lookup n with
        | none        => pure ()
        | some action => do
          let _ ← runText run {} action
          modify fun s => if s.skip = some (.finish true) then s else { s with status := status }
        attendTo run status k

/-- The same, with the status as it was. -/
def attend (run : Runner) : Sh Unit := do
  let waiting ← Sh.code (Code.call fun id s => ((s.alert? id).isSome, s.setAlert id none))
  if waiting then
    let s ← get
    let status := s.finalStatus.getD s.status
    set { s with finalStatus := some status }
    attendTo run status roundLimit
    modify fun t => { t with finalStatus := s.finalStatus }

/-- Settles the status of a shell that has come to an end. -/
def settle (h : Option Halt) : Sh Unit :=
  modify fun s =>
    let isFinal := h = some .exit || s.skip = some (.finish false)
    { s with
      status := if isFinal then s.finalStatus.getD s.status else s.status
      finalStatus := none
      skip := none
      loops := 0 }

/-- The end of a shell: what is to be done then is done, and its status comes out. -/
def conclude (run : Runner) (x : Sh Nat) : Sh Nat := do
  match ← Sh.attempt x with
  | .ok _    => pure ()
  | .error h => settle (some h)
  let s ← get
  match s.traps.lookup 0 with
  | none        => pure s.status
  | some action => do
    set { s with finalStatus := some s.status, skip := none, traps := s.traps.filter (·.1 ≠ 0) }
    match ← Sh.attempt (runText run {} action) with
    | .ok _    => do
      modify fun s => { s with skip := some (.finish false) }
      settle none
    | .error h => settle (some h)
    pure (← get).status

/-! ### Outputs -/

/-- Reads a stream to its end. -/
def readAll (fd : Nat) : Nat → List Bytes → Sh (List Bytes)
  | 0, chunks     => pure chunks
  | k + 1, chunks => do
    match ← Sh.code (Code.read fd none) with
    | .error _ => pure chunks
    | .ok []   => pure chunks
    | .ok data => readAll fd k (data :: chunks)

/-- Runs a command in a shell of its own and gives what it prints. -/
def listen (run : Runner) : Expansion.Listener := fun c => do
  match c with
  | .nothing => pure ""
  | c        => do
    let (source, target) ← Sh.code Code.pipe
    let child : Sh Nat := do
      Sh.code (Code.close source)
      if target ≠ 1 then
        let _ ← Sh.code (Code.duplicate target 1)
        Sh.code (Code.close target)
      run { exits := true } c
    let pid ← Job.fork (conclude run child)
    let job ← Job.remember [pid]
    Sh.code (Code.close target)
    let chunks ← readAll source roundLimit []
    Sh.code (Code.close source)
    let status ← Job.finish job
    modify fun s => { s with outputStatus := status }
    pure (Text.Octets.ofBytes chunks.reverse.flatten)

/-! ### Compound commands -/

/-- Counts a loop as left, as far as commands are being passed over; whether the loop is over, and
whether its round is. -/
def skipRound : Sh (Option Skip) := do
  let s ← get
  match s.skip with
  | some (.leave n) =>
    set { s with skip := if n ≤ 1 then none else some (.leave (n - 1)) }
    pure (some (.leave n))
  | some (.again n) =>
    set { s with skip := if n ≤ 1 then none else some (.again (n - 1)) }
    pure (some (if n ≤ 1 then .again n else .leave n))
  | other           => pure other

/-- Whether what is passed over includes the rest of a loop. -/
def endsLoop : Option Skip → Bool
  | none            => false
  | some (.again _) => false
  | some _          => true

/-- Runs a loop as long as its test comes out as wanted. -/
def runLoop (run : Runner) (tested wanted : Bool) (test body : Command) : Nat → Nat → Sh Nat
  | 0, status     => pure status
  | k + 1, status => do
    let i ← run { tested := true } test
    let skip ← skipRound
    match skip with
    | some (.finish isStated) => pure (if isStated then i else status)
    | some _                  =>
      if endsLoop skip then pure status else runLoop run tested wanted test body k status
    | none                    =>
      if (i = 0) ≠ wanted then pure status
      else
        let status ← run { tested := tested } body
        if endsLoop (← skipRound) then pure status
        else runLoop run tested wanted test body k status

/-- Does something with one more loop around it. -/
def inLoop (x : Sh Nat) : Sh Nat := do
  modify fun s => { s with loops := s.loops + 1 }
  let status ← x
  modify fun s => { s with loops := s.loops - 1 }
  pure status

/-- Runs a command once for each of some values. -/
def runEach (run : Runner) (tested : Bool) (name : String) (body : Command) :
    Nat → List String → Sh Nat
  | status, []  => pure status
  | _, v :: vs => do
    Sh.setVar name v
    let status ← run { tested := tested } body
    if endsLoop (← skipRound) then pure status
    else runEach run tested name body status vs

/-- Whether one of some patterns fits a text. -/
def fitsAny (run : Runner) (subject : List Char) : List Word → Sh Bool
  | []     => pure false
  | w :: r => do
    if (← Expansion.pattern (listen run) w).covers subject then pure true
    else fitsAny run subject r

/-- Runs the first case of which a pattern fits. -/
def runCases (run : Runner) (o : Outlook) (subject : List Char) :
    List (List Word × Command) → Sh Nat
  | []              => pure 0
  | (ps, body) :: r => do
    if ← fitsAny run subject ps then
      match body with
      | .nothing => pure 0
      | body     => run o body
    else runCases run o subject r

/-- Does something with redirections; they are taken back in any case. A redirection that fails gives the
status instead. -/
def redirected (run : Runner) (rs : List Redirect) (x : Sh Nat) : Sh Nat := do
  let ready ← Redirection.prepare (listen run) rs
  let carried ← Sh.attempt (Redirection.carryOut (listen run) true ready)
  let aside := (← get).aside
  match carried with
  | .error .failure => do
    Redirection.restore aside
    pure 2
  | .error h        => Sh.halt h
  | .ok ()          => do
    let r ← Sh.attempt x
    Redirection.restore aside
    match r with
    | .ok status => pure status
    | .error h   => Sh.halt h

/-- What a process does first that is left to itself. -/
def beApart (isFirst : Bool) : Sh Unit := do
  Sh.code (Code.change fun id s =>
    (s.heed id Signal.interrupt true false).heed id Signal.quit true false)
  modify fun s => { s with deaf := Signal.interrupt :: Signal.quit :: s.deaf }
  if isFirst then
    Sh.code (Code.close 0)
    let _ ← Sh.code (Code.openPath (.ofString "/dev/null") .read)

/-- Runs a command in a shell of its own. -/
def runInner (run : Runner) (o : Outlook) (isApart : Bool) (c : Command) (rs : List Redirect) :
    Sh Nat := do
  let ready ← Redirection.prepare (listen run) rs
  let body : Sh Nat := do
    Redirection.carryOut (listen run) false ready
    let status ← run ⟨true, o.tested && !isApart⟩ c
    modify fun s => { s with status := status }
    Sh.halt .ended
  let s ← get
  if !isApart && o.exits && !s.hasTraps then
    modify Job.State.asChild
    body
  else
    let pid ← Job.fork (conclude run (do
      if isApart then beApart true
      body))
    let job ← Job.remember [pid]
    if isApart then
      modify fun s => { s with lastApart := some pid }
      pure 0
    else Job.finish job

/-- Starts the members of a pipe, each reading what the one in front prints; `source` is where the first
one reads. Gives their numbers. -/
def startMembers (run : Runner) (o : Outlook) (isApart : Bool) :
    Option Nat → List Command → Sh (List Nat)
  | _, []           => pure []
  | source, c :: cs => do
    let link ← if cs.isEmpty then pure none else some <$> Sh.code Code.pipe
    let child : Sh Nat := do
      if isApart then beApart source.isNone
      match link with
      | some (next, _) => Sh.code (Code.close next)
      | none           => pure ()
      match source with
      | some fd =>
        if 0 < fd then
          let _ ← Sh.code (Code.duplicate fd 0)
          Sh.code (Code.close fd)
      | none    => pure ()
      match link with
      | some (_, target) =>
        if 1 < target then
          let _ ← Sh.code (Code.duplicate target 1)
          Sh.code (Code.close target)
      | none             => pure ()
      run { o with exits := true } c
    let pid ← Job.fork (conclude run child)
    match source with
    | some fd => Sh.code (Code.close fd)
    | none    => pure ()
    match link with
    | some (_, target) => Sh.code (Code.close target)
    | none             => pure ()
    let pids ← startMembers run o isApart (link.map (·.1)) cs
    pure (pid :: pids)

/-- Runs commands of which each reads what the one in front prints. -/
def runPipe (run : Runner) (o : Outlook) (isApart : Bool) (members : List Command) : Sh Nat := do
  let pids ← startMembers run o isApart none members
  let job ← Job.remember pids
  if isApart then
    modify fun s => { s with lastApart := pids.getLast? }
    pure 0
  else Job.finish job

/-! ### Parts of the shell -/

/-- An effect as an answer; messages are printed first. -/
def answerOf (e : Effect) : Sh Answer := do
  (e.prints.filter (·.1)).forM fun p => Sh.tell 2 p.2
  pure ⟨e.status, String.join ((e.prints.filter (!·.1)).map (·.2))⟩

/-- The file that a name without a slash stands for as a script. -/
def scriptPath (name : String) : Sh String := do
  if name.toList.contains '/' then pure name
  else
    let s ← get
    let paths := Lookup.candidates (Lookup.pathOf s) name
    match ← Sh.code (Code.look fun id sys =>
        paths.find? fun p => (sys.filesOf id).isFile (.ofOctets p)) with
    | some p => pure p
    | none   => Sh.fail (name ++ ": not found")

/-- The text of a script. -/
def scriptText (path : String) : Sh String := do
  match ← Sh.code (Code.look fun id sys => (sys.filesOf id).read (.ofOctets path)) with
  | .ok data                   => pure (Text.Octets.ofBytes data)
  | .error (.os .isDirectory)  => pure ""
  | .error why                 =>
    Sh.fail ("cannot open " ++ path ++ ": " ++ Redirection.shown "No such file" why)

/-- Runs a script in this shell. -/
def runScript (run : Runner) (args : List String) : Sh Answer := do
  let (_, args) ← Builtin.options "" args
  match args with
  | []     => Builtin.done
  | a :: _ => do
    let path ← scriptPath a
    let text ← scriptText path
    modify fun s => { s with topic := some path }
    pure ⟨← runFile run text, ""⟩

/-- Leaves loops or goes on with their next round. -/
def skipLoops (args : List String) (skip : Nat → Skip) : Sh Answer := do
  let n ← args.head?.elim (pure 1) Sh.number
  if n = 0 then Sh.fail ("Illegal number: " ++ args.headD "")
  let s ← get
  let n := min n s.loops
  if 0 < n then set { s with skip := some (skip n) }
  Builtin.done

/-- Leaves a function or a file. -/
def leaveFunction (args : List String) : Sh Answer := do
  let s ← get
  match args with
  | []     => do
    set { s with skip := some (.finish false) }
    pure ⟨s.status, ""⟩
  | a :: _ => do
    let n ← Sh.number a
    set { s with skip := some (.finish true) }
    pure ⟨n, ""⟩

/-- What the parts of the shell do. -/
def runBuiltin (run : Runner) (o : Outlook) (name : String) (args : List String) : Sh Answer := do
  let s ← get
  let place : Caller := .shell s.origin
  match name with
  | ":" | "true" => Builtin.done
  | "false"      => pure ⟨1, ""⟩
  | "echo"       => answerOf (Echo.run place args)
  | "printf"     => answerOf (Printf.run place args)
  | "test" | "[" => do
    let files ← Sh.code (Code.look fun id sys => sys.filesOf id)
    answerOf (Condition.run files place name args)
  | "break"      => skipLoops args .leave
  | "continue"   => skipLoops args .again
  | "return"     => leaveFunction args
  | "exit"       => do
    match args with
    | []     => pure ()
    | a :: _ => do
      let n ← Sh.number a
      modify fun s => { s with finalStatus := some n }
    Sh.halt .exit
  | "exec"       =>
    match args with
    | []        => Builtin.done
    | p :: args => Lookup.execute p args none
  | "eval"       => do
    if args.isEmpty then Builtin.done
    else
      pure ⟨← runText run { tested := o.tested } (String.intercalate " " args), ""⟩
  | "."          => runScript run args
  | "alias"      => Builtin.Naming.makeAlias name args
  | "unalias"    => Builtin.Naming.dropAlias name args
  | "export"     => Builtin.Naming.mark true false name args
  | "readonly"   => Builtin.Naming.mark false true name args
  | "unset"      => Builtin.Naming.unset name args
  | "local"      => Builtin.Naming.localize name args
  | "set"        => Builtin.Naming.set name args
  | "shift"      => Builtin.Naming.shift name args
  | "getopts"    => Builtin.Naming.getopts name args
  | "type"       => Builtin.Naming.type name args
  | "command"    => Builtin.Naming.command name args
  | "hash"       => Builtin.Naming.hash name args
  | "read"       => Builtin.Reading.read name args
  | "cd"         => Builtin.Place.change name args
  | "chdir"      => Builtin.Place.change name args
  | "pwd"        => Builtin.Place.tell name args
  | "umask"      => Builtin.Place.mask name args
  | "ulimit"     => Builtin.Place.limits name args
  | "times"      => Builtin.Place.times name args
  | "trap"       => Builtin.Signals.trap name args
  | "kill"       => Builtin.Signals.kill name args
  | "wait"       => Builtin.Signals.wait name args
  | "jobs"       => Builtin.Signals.jobs name args
  | "fg" | "bg"  => Builtin.Signals.foreground name args
  | _            => Builtin.done

/-- Runs a part of the shell and prints what it comes to. -/
def callBuiltin (run : Runner) (o : Outlook) (name : String) (args : List String) : Sh Nat := do
  let topic := (← get).topic
  modify fun s => { s with topic := some name }
  let r ← Sh.attempt do
    let a ← runBuiltin run o name args
    if a.text.isEmpty then pure a.status
    else
      match ← Sh.code (Code.put 1 a.text) with
      | .ok ()   => pure a.status
      | .error _ => do
        Sh.warn (((← get).topic.getD name) ++ ": I/O error")
        pure (a.status ||| 1)
  modify fun s => { s with topic := topic }
  match r with
  | .ok status => do
    modify fun s => { s with status := status }
    pure status
  | .error h   => Sh.halt h

/-- Runs a function. -/
def callFunction (run : Runner) (o : Outlook) (f : Function) (args : List String) : Sh Nat := do
  let s ← get
  if depthLimit ≤ s.depth then
    Sh.fail ("Maximum function recursion depth (" ++ toString depthLimit ++ ") reached")
  set { s with
    params := args, optionIndex := 1, optionPlace := none, depth := s.depth + 1, loops := 0 }
  let r ← Sh.attempt (run { tested := o.tested } f.body)
  modify fun t => { t with
    params := s.params
    optionIndex := s.optionIndex
    optionPlace := s.optionPlace
    depth := s.depth
    loops := s.loops
    skip :=
      match t.skip with
      | some (.finish _) => none
      | other            => other }
  match r with
  | .ok _    => do pure (← get).status
  | .error h => Sh.halt h

/-! ### Simple commands -/

/-- The words of a command under way: fields, and the words that are none yet. -/
structure Pending where
  fields : List String
  words : List Word

/-- Makes fields of words until there is one at least. -/
def firstFields (run : Runner) (fields : List String) : List Word → Sh Pending
  | []      => pure ⟨fields, []⟩
  | w :: ws =>
    if !fields.isEmpty then pure ⟨fields, w :: ws⟩
    else do
      let fields ← Expansion.fields (listen run) w
      firstFields run fields ws

/-- What stands behind `command` as far as its options only say where to look; none if there is more to
them, together with all fields so far. -/
def behindCommand (run : Runner) (seen : List String) (path : Option String) :
    Nat → Pending → Sh (Option (Pending × Option String) × Pending)
  | 0, p     => pure (none, { p with fields := seen ++ p.fields })
  | k + 1, p => do
    let p ← firstFields run p.fields p.words
    let whole : Pending := { p with fields := seen ++ p.fields }
    match p.fields with
    | []     => pure (none, whole)
    | a :: r =>
      match a.toList with
      | ['-', '-']  => do
        let q ← firstFields run r p.words
        if q.fields.isEmpty then pure (none, { q with fields := seen ++ [a] })
        else pure (some (q, path), whole)
      | '-' :: c :: cs =>
        if (c :: cs).all (· = 'p') then
          behindCommand run (seen ++ [a]) (some Lookup.standardPath) k { p with fields := r }
        else pure (none, whole)
      | _           => pure (some (p, path), whole)

/-- What a simple command is about to do. -/
structure Plan where
  pending : Pending
  /-- Whether functions count, and directories to search instead of the usual ones. -/
  functions : Bool := true
  path : Option String := none
  /-- Whether it belongs to the language of the shell. -/
  isSpecial : Bool := false
  /-- Whether values in front of it last. -/
  keepsValues : Bool := false
  /-- Whether arguments may assign values. -/
  takesValues : Bool := false
  isExec : Bool := false

/-- Looks at the front of a command up to its name. -/
def planOf (run : Runner) : Nat → Plan → Sh Plan
  | 0, plan     => pure plan
  | k + 1, plan => do
    match plan.pending.fields with
    | []        => pure plan
    | name :: r => do
      let s ← get
      let isFunction := plan.functions && s.functions.any (·.1 == name)
      if isFunction || !Lookup.isBuiltin name then pure { plan with takesValues := false }
      else
        let plan := { plan with
          takesValues := ["export", "readonly", "local", "alias"].contains name
          isExec := name = "exec" }
        let plan :=
          if plan.functions then
            { plan with isSpecial := Lookup.isSpecial name, keepsValues := Lookup.isSpecial name }
          else plan
        if name ≠ "command" then pure plan
        else
          match ← behindCommand run [name] none (r.length + 100)
              { plan.pending with fields := r } with
          | (some (p, path), _) =>
            planOf run k { plan with
              pending := p, functions := false, path := path.or plan.path }
          | (none, p)           => pure { plan with pending := p }

/-- The fields of an argument; one that assigns a value stays in one piece. -/
def argument (run : Runner) (takesValues : Bool) (w : Word) : Sh (List String) := do
  match (if takesValues then assignment? w else none) with
  | some (name, value) => do
    pure [name ++ "=" ++ (← Expansion.text (listen run) { colons := true } value)]
  | none               => Expansion.fields (listen run) w

/-- Assigns the values in front of a command; gives them as text. -/
def assignAll (run : Runner) (lasts exports : Bool) (ws : List Word) : Sh (List String) :=
  ws.mapM fun w => do
    match assignment? w with
    | none               => pure ""
    | some (name, value) => do
      let v ← Expansion.text (listen run) { colons := true } value
      if lasts then Sh.assign name (some v) exports false
      else Builtin.Naming.hideAndAssign true (name ++ "=" ++ v)
      pure (name ++ "=" ++ v)

/-- Shows a command that is about to run. -/
def trace (run : Runner) (values fields : List String) : Sh Unit := do
  let s ← get
  if s.has 'x' && !s.isTracing then
    set { s with isTracing := true }
    let text := (s.value? "PS4").getD ""
    let front ←
      match (Reading.piece readingLimit true .text {}).run (s.source text) with
      | .ok (d, _) => Expansion.text (listen run) { tilde := false } d.word
      | .error _   => pure text
    modify fun s => { s with isTracing := false }
    let fd := ((s.aside.lookup 2).bind fun a => a).getD 2
    Sh.tell fd (front ++ String.intercalate " " (values ++ fields) ++ "\n")

/-- Gives names back what they stood for before a command or function. -/
def unhide : Nat → Sh Unit
  | 0     => pure ()
  | k + 1 => do
    let s ← get
    match s.hidden with
    | []        => pure ()
    | top :: up => do
      set { s with hidden := up }
      top.forM fun (name, old) => do
        let s ← get
        match old with
        | some v =>
          set (if name = "-" then { s with options := (v.value.getD "").toList } else s.put name v)
        | none   => do
          if !isName name then Sh.fail (name ++ ": bad variable name")
          set (s.remove name)
      unhide k

/-- Starts a program and waits for it; nothing else is left to do if `exits` is set. -/
def callProgram (exits : Bool) (name : String) (args : List String) (path : Option String) :
    Sh Nat := do
  let s ← get
  if exits && !s.hasTraps then Lookup.execute name args path
  else
    let pid ← Job.fork do
      match ← Sh.attempt (Lookup.execute name args path : Sh Nat) with
      | _ => pure (← get).status
    Job.finish (← Job.remember [pid])

/-- Does what a simple command stands for, once everything around it is in place. -/
def callMeaning (run : Runner) (o : Outlook) (plan : Plan) (fields : List String) : Sh Nat := do
  match fields with
  | []           => do
    let s ← get
    set { s with status := s.outputStatus }
    pure s.outputStatus
  | name :: args => do
    match ← Lookup.find name plan.functions true plan.path with
    | .unknown    => do
      modify fun s => { s with status := 127 }
      if plan.isSpecial then Sh.halt .failure else pure 127
    | .program _  => callProgram o.exits name args plan.path
    | .function f => callFunction run o f args
    | .builtin    => do
      match ← Sh.attempt (callBuiltin run o name args) with
      | .ok status       => pure status
      | .error .failure  =>
        if plan.isSpecial then Sh.halt .failure else do pure (← get).status
      | .error h         => Sh.halt h

/-- Runs a simple command. -/
def runSimple (run : Runner) (o : Outlook) (line : Nat) (assignments words : List Word)
    (rs : List Redirect) : Sh Nat := do
  modify fun s => { s with line := line, outputStatus := 0 }
  let pending ← firstFields run [] words
  let plan ← planOf run 100 { pending := pending }
  let more ← plan.pending.words.mapM (argument run plan.takesValues)
  let fields := plan.pending.fields ++ more.flatten
  let depth := (← get).hidden.length
  let lasts := fields.isEmpty || plan.keepsValues
  if !lasts then modify fun s => { s with hidden := [] :: s.hidden }
  let ready ← Redirection.prepare (listen run) rs
  let carried ← Sh.attempt (Redirection.carryOut (listen run) true ready)
  let aside := (← get).aside
  let leave : Sh Unit := do
    if plan.isExec then Redirection.forget aside else Redirection.restore aside
    unhide ((← get).hidden.length - depth)
  match carried with
  | .error .failure => do
    modify fun s => { s with status := 2 }
    Redirection.restore aside
    unhide ((← get).hidden.length - depth)
    if plan.isSpecial then Sh.halt .failure else pure 2
  | .error h        => Sh.halt h
  | .ok ()          => do
    let r ← Sh.attempt do
      let values ← assignAll run lasts (plan.isExec && 1 < fields.length) assignments
      modify fun s => { s with aside := aside }
      trace run values fields
      callMeaning run o plan fields
    match r with
    | .ok status => do
      if !(← get).jobs.isEmpty then Job.collect none false
      leave
      pure status
    | .error h   => do
      Redirection.restore aside
      Sh.halt h

/-! ### Commands -/

/-- Runs a command; `run` runs those inside it. Gives the status, whether it is the status of the shell
from now on, and whether a failure may end the shell. -/
def runKind (run : Runner) (o : Outlook) : Command → Sh (Nat × Bool × Bool)
  | .nothing               => pure (0, false, false)
  | .simple line as ws rs  => do pure (← runSimple run o line as ws rs, true, true)
  | .pipe _ members apart  => do pure (← runPipe run o apart members, true, true)
  | .inner line c rs       => do
    modify fun s => { s with line := line }
    pure (← runInner run o false c rs, true, true)
  | .apart line c rs       => do
    modify fun s => { s with line := line }
    pure (← runInner run o true c rs, true, true)
  | .group line c rs       => do
    modify fun s => { s with line := line }
    pure (← redirected run rs (run { tested := o.tested } c), true, false)
  | .negated c             => do
    let status ← run { tested := true } c
    pure (if status = 0 then 1 else 0, true, false)
  | .ifOk wanted a b       => do
    let status ← run { tested := true } a
    if (status = 0) ≠ wanted || (← get).skip.isSome then pure (status, false, false)
    else do pure (← run o b, true, false)
  | .seq a b               => do
    let status ← run { tested := o.tested } a
    if (← get).skip.isSome then pure (status, false, false)
    else do pure (← run o b, true, false)
  | .cond test yes no      => do
    let status ← run { tested := true } test
    if (← get).skip.isSome then pure (status, false, false)
    else if status = 0 then do pure (← run o yes, true, false)
    else
      match no with
      | some c => do pure (← run o c, true, false)
      | none   => pure (0, true, false)
  | .loop wanted test body => do
    let status ← inLoop (runLoop run o.tested wanted test body roundLimit 0)
    pure (status, true, false)
  | .each line name ws body => do
    modify fun s => { s with line := line }
    let values ← ws.mapM (Expansion.fields (listen run))
    let status ← inLoop (runEach run o.tested name body 0 values.flatten)
    pure (status, true, false)
  | .choice line w cs      => do
    modify fun s => { s with line := line }
    let subject ← Expansion.text (listen run) {} w
    pure (← runCases run o subject.toList cs, true, false)
  | .define line name body => do
    modify fun s => { s with
      functions := (name, ⟨line, body⟩) :: s.functions.filter fun f => f.1 != name }
    pure (0, true, false)

/-- Runs a command with all that goes with it: signals are looked at in front of it and behind it, and a
failure that nobody looks at may end the shell. -/
def runAround (run : Runner) (o : Outlook) (c : Command) : Sh Nat := do
  let s ← get
  let (status, mayEnd) ←
    if s.has 'n' || (c matches .nothing) then pure (0, false)
    else do
      attend run
      let (status, counts, mayEnd) ← runKind run o c
      if counts then modify fun s => { s with status := status }
      pure (status, mayEnd)
  attend run
  let s ← get
  if s.has 'e' && mayEnd && !o.tested && status ≠ 0 then Sh.halt .ended
  else if o.exits then Sh.halt .ended
  else pure status

/-- Runs a command with so many others around it; beyond the limit the process is ended. -/
def evaluateWithin : Nat → Runner
  | 0, _, _     => Sh.code (Code.exit (.signal 11))
  | k + 1, o, c => runAround (evaluateWithin k) o c

/-- How deep commands may stand inside one another. -/
def nestingLimit : Nat := 30000

/-- Runs a command. -/
def evaluate : Runner := evaluateWithin nestingLimit

end Assay.Shell
