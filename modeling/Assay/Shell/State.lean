import Assay.Process.Course
import Assay.Shell.Grammar
import Assay.Utility.Basic
import Assay.Utility.Digits

/-!
# Shell — what a shell remembers

The state of a shell besides what belongs to its process: parameters, functions, options, jobs, and
where in a script it is. Texts are octets.

* `Sh`: what a shell does, which may come to an early end.
* `Sh.fail`, `Sh.warn`: messages, which begin with the place in the script.
-/

namespace Assay.Shell

structure Variable where
  /-- None if it has properties only. -/
  value : Option String := none
  isExported : Bool := false
  isReadonly : Bool := false
  deriving DecidableEq, Repr

/-- Commands that are passed over. -/
inductive Skip where
  /-- The rest of some loops. -/
  | leave (loops : Nat)
  /-- The rest of this time through the outermost of some loops. -/
  | again (loops : Nat)
  /-- The rest of a function or file, whether or not a status was stated for it. -/
  | finish (isStated : Bool)
  deriving DecidableEq, Repr

/-- Why a shell stops in the middle. -/
inductive Halt where
  | failure
  /-- It was told to. -/
  | exit
  /-- Its last command is through. -/
  | ended
  deriving DecidableEq, Repr

/-- Processes started together, and how those ended that have. -/
structure Job where
  id : Nat
  members : List (Nat × Option Exit)
  /-- Whether anybody has asked how it ended. -/
  isKnown : Bool := false
  deriving DecidableEq, Repr

/-- What a name stands for among the functions. -/
structure Function where
  line : Nat
  body : Command

structure State where
  /-- The name of the shell or script. -/
  zero : String
  params : List String := []
  values : List (String × Variable) := []
  functions : List (String × Function) := []
  aliases : List (String × String) := []
  /-- The options that are set, by their letters. -/
  options : List Char := []
  /-- How the last command ended, and the last command whose output was asked for. -/
  status : Nat := 0
  outputStatus : Nat := 0
  /-- The status to end with, if that has been settled. -/
  finalStatus : Option Nat := none
  /-- The number of the shell, which the shells it makes keep, and whether it is one of these. -/
  shellId : Nat := 0
  isInner : Bool := false
  /-- The process last left to itself. -/
  lastApart : Option Nat := none
  /-- Newest first. -/
  jobs : List Job := []
  /-- What is done on signals; nothing at all if that is empty. -/
  traps : List (Nat × String) := []
  /-- Signals that did nothing when the shell began. -/
  deaf : List Nat := []
  /-- The line for messages, and the command that they are about. -/
  line : Nat := 0
  /-- The line up to which the script has been read. -/
  readLine : Nat := 1
  topic : Option String := none
  loops : Nat := 0
  skip : Option Skip := none
  /-- Functions that are running, and what their names stood for outside. -/
  depth : Nat := 0
  hidden : List (List (String × Option Variable)) := []
  /-- Where the reading of options is: at an argument and, once that has begun, so far into it. -/
  optionIndex : Nat := 1
  optionPlace : Option Nat := none
  /-- Paths of programs found by name. -/
  found : List (String × String) := []
  /-- Texts that commands read from, and the next number for one. -/
  texts : List (Nat × Word) := []
  nextText : Nat := 0
  /-- The directory as it was asked for. -/
  place : String := ""
  /-- Whether a file is being read, and whether a command is being shown. -/
  isFile : Bool := false
  isTracing : Bool := false
  /-- Descriptors put aside for the command that is about to run, and where they are. -/
  aside : List (Nat × Option Nat) := []

abbrev Sh := ExceptT Halt (StateT State Code)

namespace State

def has (s : State) (option : Char) : Bool := s.options.contains option

def value? (s : State) (name : String) : Option String :=
  (s.values.lookup name).bind (·.value)

/-- The letters of the options in the order in which they are shown. -/
def optionOrder : List Char := "pubaCEVvxsnmiIfe".toList

/-- The characters that fields are separated by. -/
def separators (s : State) : String := (s.value? "IFS").getD " \t\n"

/-- How messages begin. -/
def origin (s : State) : String := s.zero ++ ": " ++ toString s.line

/-- How messages on a command begin. -/
def header (s : State) : String :=
  match s.topic with
  | some name => s.origin ++ ": " ++ name ++ ": "
  | none      => s.origin ++ ": "

def put (s : State) (name : String) (v : Variable) : State :=
  { s with values := (name, v) :: s.values.filter (·.1 != name) }

def remove (s : State) (name : String) : State :=
  { s with values := s.values.filter (·.1 != name) }

/-- The names and values that programs are given. -/
def environment (s : State) : List (Bytes × Bytes) :=
  s.values.filterMap fun (name, v) =>
    match v.isExported, v.value with
    | true, some text => some (Text.Octets.toBytes name, Text.Octets.toBytes text)
    | _, _            => none

/-- Whether anything is to be done on a signal or at the end. -/
def hasTraps (s : State) : Bool := s.traps.any fun t => t.2 != ""

/-- A script that is about to be read. -/
def source (s : State) (text : String) : Source where
  rest := text.toList
  aliases := s.aliases
  texts := s.texts
  nextText := s.nextText

end State

namespace Sh

variable {α : Type}

/-- Something that the process does. -/
def code (c : Code α) : Sh α := ExceptT.lift (StateT.lift c)

def halt (h : Halt) : Sh α := ExceptT.mk (pure (.error h))

/-- Prints a text to a stream. -/
def tell (fd : Nat) (text : String) : Sh Unit := code (Code.tell fd text)

/-- Says something about the command under way. -/
def warn (text : String) : Sh Unit := do
  let s ← get
  tell 2 (s.header ++ text ++ "\n")

/-- Gives up, with a message. -/
def fail (text : String) : Sh α := do
  warn text
  modify fun s => { s with status := 2 }
  halt .failure

/-- Goes on in any case, with what came out. -/
def attempt (x : Sh α) : Sh (Except Halt α) :=
  ExceptT.mk do
    let r ← ExceptT.run x
    pure (.ok r)

/-! ### Parameters -/

/-- The number that a text stands for. It may have a sign and blanks around it but is not below
zero. -/
def number (a : String) : Sh Nat :=
  match decimal a with
  | .ok n      =>
    if 0 ≤ n && n ≤ 2147483647 then pure n.toNat else fail ("Illegal number: " ++ a)
  | .error why => fail why

/-- Gives a name a value and perhaps properties; no value takes it away unless it has some. The name
ends at an equals sign. -/
def assign (text : String) (value : Option String) (exports locks : Bool) : Sh Unit := do
  let name := String.ofList (text.toList.takeWhile (· ≠ '='))
  if !isName name then fail (name ++ ": bad variable name")
  let s ← get
  let old := (s.values.lookup name).getD {}
  if old.isReadonly then fail (name ++ ": is read only")
  let exports := old.isExported || exports || (value.isSome && s.has 'a')
  let v : Variable := ⟨value, exports, locks⟩
  let s ←
    if name = "OPTIND" then do
      let n ← number (value.getD "")
      pure { s with optionIndex := max 1 n, optionPlace := none }
    else pure s
  let s := if name = "PATH" then { s with found := [] } else s
  set (if value.isSome || exports || locks then s.put name v else s.remove name)

def setVar (name value : String) : Sh Unit := assign name (some value) false false

end Sh

end Assay.Shell
