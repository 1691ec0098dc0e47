import Assay.Shell.Evaluation

/-!
# Shell — a shell from its start to its end

A shell is told by its arguments which options to set and where its commands come from: from an
argument, from a file or from the stream that it reads.

* `Shell.course`: all that a shell does.
-/

namespace Assay.Shell

/-- Where the commands of a shell come from. -/
structure Start where
  /-- The options and, for each letter, whether it is set. -/
  rest : List String
  takesText : Bool := false
  /-- The options that have been taken back; the others still count as set in a list of them. -/
  off : List Char := []

namespace Start

/-- Notes whether some options have been set or taken back. -/
def note (isOn : Bool) (letters : List Char) (st : Start) : Start :=
  let off := st.off.filter (!letters.contains ·)
  { st with off := if isOn then off else letters ++ off }

/-- The letters of one argument. -/
def takeLetters (isOn : Bool) : List Char → Start → Sh Start
  | [], st      => pure st
  | 'c' :: r, st => takeLetters isOn r { st with takesText := true }
  | 'l' :: r, st => takeLetters isOn r st
  | 'o' :: r, st =>
    match st.rest with
    | []           => do
      let isSet (c : Option Char) : Bool := !c.any st.off.contains
      Sh.tell 1 (Builtin.Naming.optionListing isSet isOn)
      takeLetters isOn r st
    | name :: rest => do
      Builtin.Naming.turnName isOn name
      let letter := ((Builtin.Naming.optionNames.lookup name).bind id).toList
      takeLetters isOn r ({ st with rest := rest }.note isOn letter)
  | c :: r, st  => do
    Builtin.Naming.turnLetter isOn c
    takeLetters isOn r (st.note isOn [c])

/-- Takes the options from the front of the arguments. -/
def takeOptions : Nat → Start → Sh Start
  | 0, st     => pure st
  | k + 1, st =>
    match st.rest with
    | []     => pure st
    | a :: r =>
      match a.toList with
      | ['-'] | ['-', '-'] => pure { st with rest := r }
      | '-' :: cs          => do takeOptions k (← takeLetters true cs { st with rest := r })
      | '+' :: cs          => do takeOptions k (← takeLetters false cs { st with rest := r })
      | _                  => pure st

/-- Names the shell after an argument and gives the others to it as parameters. -/
def name (args : List String) : Sh Unit :=
  match args with
  | []     => pure ()
  | a :: r => modify fun s => { s with zero := a, params := r }

/-- Settles the options once it is known where the commands come from. -/
def settleOptions : Sh Unit := do
  if (← get).has 'i' then Builtin.Naming.turn true 'm'
  Builtin.Naming.dropJobControl

/-- Runs the commands that come from the stream. -/
def runStream : Sh Nat := do
  let chunks ← readAll 0 roundLimit []
  runFile evaluate (Text.Octets.ofBytes chunks.reverse.flatten)

/-- Runs the commands of a file, or becomes the program that it is. -/
def runPath (path : String) (args : List String) : Sh Nat := do
  let s ← get
  let found ← Sh.code (Code.look fun id sys => (sys.filesOf id).openFile (.ofOctets path))
  match found with
  | .ok f    =>
    if Image.isNative f then
      let i : Image :=
        ⟨f, Text.Octets.toBytes path, args.map Text.Octets.toBytes, s.environment⟩
      Sh.code fun _ => .become i
    else do
      name (path :: args)
      settleOptions
      runFile evaluate (Text.Octets.ofBytes f.content)
  | .error _ => do
    let text ← scriptText path
    name (path :: args)
    settleOptions
    runFile evaluate text

/-- Runs the commands of a shell. -/
def runAll (args : List String) : Sh Nat := do
  let st ← takeOptions (args.length + 1) { rest := args }
  match st.takesText, st.rest with
  | true, []        => Sh.fail "-c requires an argument"
  | true, text :: r => do
    name r
    settleOptions
    let reads := (← get).has 's'
    let status ← runText evaluate { exits := !reads } text
    if reads then runStream else pure status
  | false, []       => do
    Builtin.Naming.turn true 's'
    settleOptions
    runStream
  | false, path :: r => do
    if (← get).has 's' then do
      modify fun s => { s with params := path :: r }
      settleOptions
      runStream
    else runPath path r

end Start

/-- What a shell knows when it starts. -/
def initialState (i : Image) (p : Process) (files : FileSystem) : State :=
  let given := i.environment.map fun (n, v) => (Text.Octets.ofBytes n, Text.Octets.ofBytes v)
  let given := given.filter fun v => isName v.1
  let physical := Text.Octets.ofBytes (Loc.path files.cwd).bytes
  let place :=
    match given.lookup "PWD" with
    | some t =>
      match files.openDir (.ofOctets t) with
      | .ok l    => if t.startsWith "/" && l = files.cwd then t else physical
      | .error _ => physical
    | none   => physical
  let start : State :=
    { zero := Text.Octets.ofBytes i.name
      shellId := p.id
      deaf := p.ignored
      place := place
      values := given.map fun v => (v.1, ⟨some v.2, true, false⟩) }
  let keep (name value : String) (s : State) : State :=
    s.put name { ((s.values.lookup name).getD {}) with value := some value }
  let otherwise (name value : String) (s : State) : State :=
    if (s.values.lookup name).isSome then s else keep name value s
  let start := (start.put "PWD" ⟨some place, true, false⟩)
  let start := keep "IFS" " \t\n" (keep "OPTIND" "1" (keep "PPID" (toString p.parent) start))
  let start := otherwise "PATH" Lookup.standardPath (otherwise "PS1" "# " start)
  otherwise "PS2" "> " (otherwise "PS4" "+ " start)

/-- All that a shell does. -/
def course (i : Image) : Course :=
  let args := i.args.map Text.Octets.ofBytes
  let start : Code (Option State) := Code.look fun id s =>
    (s.process? id).map fun p => initialState i p (s.filesOf id)
  start fun
    | some s => Job.courseOf (conclude evaluate (Start.runAll args)) s
    | none   => .ended (.code 2)

end Assay.Shell
