import Assay.Process.Course
import Assay.Text.Octets

/-!
# Utility — what the standard utilities have in common

A utility is started by name with some arguments, by a shell as a part of it or as a program of its
own, which shows in its messages. Texts are octets: each character stands for one byte.

* `Effect`: what a utility does that only prints.
* `Options`: letters and words behind hyphens, read the same way by all programs.
-/

namespace Assay

/-- How a utility was started. -/
inductive Caller where
  /-- As a part of a shell; messages begin with a place in a script. -/
  | shell (place : String)
  /-- As a program with a name. -/
  | program (name : String)
  deriving DecidableEq, Repr

/-- What a utility does that only prints. -/
structure Effect where
  /-- The texts that it prints, in order, and whether each is a message. -/
  prints : List (Bool × String) := []
  status : Nat := 0
  deriving DecidableEq, Repr

namespace Effect

def say (text : String) (status : Nat) : Effect := ⟨[(true, text)], status⟩

def out (text : String) : Effect := ⟨[(false, text)], 0⟩

end Effect

namespace Caller

def isShell : Caller → Bool
  | .shell _   => true
  | .program _ => false

/-- A message of a utility with its name in front. -/
def message (c : Caller) (utility text : String) : String :=
  match c with
  | .shell place  => place ++ ": " ++ utility ++ ": " ++ text ++ "\n"
  | .program name => name ++ ": " ++ text ++ "\n"

/-- A program's hint at its help. -/
def hint (c : Caller) : String :=
  match c with
  | .shell _      => ""
  | .program name => "Try '" ++ name ++ " --help' for more information.\n"

end Caller

namespace Code

/-- Prints a text. -/
def put (fd : Nat) (text : String) : Code (Except Errno Unit) :=
  write fd (Text.Octets.toBytes text)

/-- Prints a text and does not ask whether that worked. -/
def tell (fd : Nat) (text : String) : Code Unit := print fd (Text.Octets.toBytes text)

end Code

/-- The path that a text of octets names. -/
def Path.ofOctets (text : String) : Path := ⟨Text.Octets.toBytes text⟩

namespace Utility

/-- A program as it is known by its arguments; its result is its status. -/
abbrev Program := String → List String → Code Nat

/-- All of a process that runs a program. -/
def course (p : Program) (name : String) (args : List String) : Course :=
  p name args fun status => .ended (.code (status % 256 : Nat))

/-- Prints what an effect says. -/
def perform (name : String) (e : Effect) : Code Nat := do
  let mut failed := false
  for (isMessage, text) in e.prints do
    if isMessage then Code.tell 2 text
    else
      match ← Code.put 1 text with
      | .ok ()     => pure ()
      | .error why =>
        if !failed then Code.tell 2 (name ++ ": write error: " ++ why.text ++ "\n")
        failed := true
  pure (if failed then 1 else e.status)

/-- The end of a program that does not get beyond its arguments. -/
def refuse (name why : String) : Code Nat := do
  Code.tell 2 (name ++ ": " ++ why ++ "\n" ++ (Caller.program name).hint)
  pure 1

/-- Says why something failed. -/
def complain (name why : String) : Code Nat := do
  Code.tell 2 (name ++ ": " ++ why ++ "\n")
  pure 1

/-! ### Options -/

/-- The options that a program knows. -/
structure Options where
  letters : List Char
  /-- Letters that take an argument with them. -/
  greedy : List Char := []
  /-- Words, the letters that they stand for, and whether they take an argument. -/
  words : List (String × Char × Bool) := []

/-- An option with its argument, if it has one. -/
abbrev Choice := Char × Option String

namespace Options

/-- The letters of one argument; one that takes an argument has the rest of them or, if that is
empty, the next argument. Also says whether the next argument was used up. -/
def letterChoices (o : Options) (next : Option String) :
    List Char → Except String (List Choice × Bool)
  | []     => .ok ([], false)
  | c :: r =>
    if o.greedy.contains c then
      match r, next with
      | [], none   => .error ("option requires an argument -- '" ++ String.singleton c ++ "'")
      | [], some a => .ok ([(c, some a)], true)
      | r, _       => .ok ([(c, some (String.ofList r))], false)
    else if o.letters.contains c then do
      let (more, used) ← o.letterChoices next r
      pure ((c, none) :: more, used)
    else .error ("invalid option -- '" ++ String.singleton c ++ "'")

/-- The option that a word behind two hyphens stands for; the beginning of one is enough if no other
begins like it. -/
def wordChoice (o : Options) (word : String) (next : Option String) :
    Except String (Choice × Bool) :=
  let name := String.ofList (word.toList.takeWhile (· ≠ '='))
  let value := (word.toList.drop (name.length + 1))
  let hasValue := word.toList.contains '='
  let fitting := o.words.filter fun w => w.1.startsWith name
  let choose (w : String × Char × Bool) : Except String (Choice × Bool) :=
    let (full, letter, takes) := w
    match takes, hasValue, next with
    | false, true, _     => .error ("option '--" ++ full ++ "' doesn't allow an argument")
    | false, false, _    => .ok ((letter, none), false)
    | true, true, _      => .ok ((letter, some (String.ofList value)), false)
    | true, false, some a => .ok ((letter, some a), true)
    | true, false, none  => .error ("option '--" ++ full ++ "' requires an argument")
  match fitting.find? (·.1 == name), fitting with
  | some w, _   => choose w
  | none, []    => .error ("unrecognized option '--" ++ word ++ "'")
  | none, [w]   => choose w
  | none, w :: ws =>
    if ws.all fun v => v.2 == w.2 then choose w
    else
      .error ("option '--" ++ word ++ "' is ambiguous; possibilities:" ++
        String.join (fitting.map fun v => " '--" ++ v.1 ++ "'"))

/-- The options among some arguments and the arguments that are none, or what is wrong with them.
An argument that has been used up by an option is left out. -/
def parse (o : Options) : List String → Bool → Except String (List Choice × List String)
  | [], _           => .ok ([], [])
  | _ :: r, true    => o.parse r false
  | a :: r, false   =>
    match a.toList with
    | ['-', '-']      => .ok ([], r)
    | '-' :: '-' :: w => do
      let (choice, used) ← o.wordChoice (String.ofList w) r.head?
      let (choices, operands) ← o.parse r used
      pure (choice :: choices, operands)
    | '-' :: c :: w   => do
      let (first, used) ← o.letterChoices r.head? (c :: w)
      let (choices, operands) ← o.parse r used
      pure (first ++ choices, operands)
    | _ => do
      let (choices, operands) ← o.parse r false
      pure (choices, a :: operands)

/-- Goes on with options and operands if they are in order. -/
def withOperands (o : Options) (name : String) (args : List String)
    (go : List Choice → List String → Code Nat) : Code Nat :=
  match o.parse args false with
  | .error why            => refuse name why
  | .ok (choices, files)  => go choices files

end Options

end Utility

end Assay
