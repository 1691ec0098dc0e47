/-!
# Shell — commands

The commands of a shell script and the words that they are made of. A word is a list of parts: text
that stands for itself, and values, outputs and numbers that are put in when the command is run.
-/

namespace Assay.Shell

/-- What is done with the value of a parameter. -/
inductive Change where
  | keep
  | length
  /-- Something else where there is no value or, if `orEmpty` is set, an empty one. -/
  | otherwise (orEmpty : Bool)
  /-- The same, and the parameter gets it as its value. -/
  | assign (orEmpty : Bool)
  /-- The end of the shell where there is no value. -/
  | require (orEmpty : Bool)
  /-- Something else where there is a value. -/
  | instead (orEmpty : Bool)
  /-- The value without what a pattern covers at one of its ends. -/
  | trim (atEnd longest : Bool)
  /-- No change that there is. -/
  | unknown
  deriving DecidableEq, Repr

/-- How a descriptor is redirected to a word. -/
inductive Direction where
  /-- From a file. -/
  | source
  /-- To a file; `overwrites` says whether one that is there may be lost in any case. -/
  | target (overwrites : Bool)
  | append
  | update
  /-- To where another descriptor leads. -/
  | same (isInput : Bool)
  deriving DecidableEq, Repr

mutual

/-- A part of a word. -/
inductive Part where
  | text (s : String) (quoted : Bool)
  | value (name : String) (change : Change) (word : List Part) (quoted : Bool)
  /-- What a command prints. -/
  | output (c : Command) (quoted : Bool)
  /-- The value of an arithmetic expression. -/
  | number (expression : List Part) (quoted : Bool)

inductive Redirect where
  | toWord (fd : Nat) (direction : Direction) (word : List Part)
  /-- From a text of the script, by its number. -/
  | fromText (fd text : Nat)

inductive Command where
  | nothing
  | simple (line : Nat) (assignments words : List (List Part)) (redirects : List Redirect)
  /-- Commands of which each reads what the one in front prints. -/
  | pipe (line : Nat) (members : List Command) (isApart : Bool)
  | negated (c : Command)
  /-- The second only if the first went well, or only if it did not. -/
  | ifOk (wanted : Bool) (a b : Command)
  | seq (a b : Command)
  /-- Started and left to itself. -/
  | apart (line : Nat) (c : Command) (redirects : List Redirect)
  /-- In a shell of its own. -/
  | inner (line : Nat) (c : Command) (redirects : List Redirect)
  | group (line : Nat) (c : Command) (redirects : List Redirect)
  | cond (test yes : Command) (no : Option Command)
  /-- As long as the test comes out as wanted. -/
  | loop (wanted : Bool) (test body : Command)
  /-- Once for each of some words. -/
  | each (line : Nat) (name : String) (words : List (List Part)) (body : Command)
  /-- The first case of which a pattern fits. -/
  | choice (line : Nat) (subject : List Part) (cases : List (List (List Part) × Command))
  | define (line : Nat) (name : String) (body : Command)

end

instance : Inhabited Command := ⟨.nothing⟩

instance : Inhabited Part := ⟨.text "" false⟩

abbrev Word := List Part

/-! ### Names -/

def isNameStart (c : Char) : Bool := c.isAlpha || c = '_'

def isNamePart (c : Char) : Bool := c.isAlphanum || c = '_'

def isName (s : String) : Bool :=
  s.toList.head?.any isNameStart && s.toList.all isNamePart

/-- The characters that are parameters of their own. -/
def isSpecial (c : Char) : Bool := c.isDigit || "@*#?$!-".toList.contains c

/-- The words that have a meaning of their own where a command begins. -/
def reserved : List String :=
  ["!", "case", "do", "done", "elif", "else", "esac", "fi", "for", "if", "in", "then", "until",
   "while", "\x7b", "\x7d"]

/-- The parts of the shell that belong to its language, whose failure ends it. -/
def specialNames : List String :=
  [".", ":", "break", "continue", "eval", "exec", "exit", "export", "local", "readonly", "return",
   "set", "shift", "times", "trap", "unset"]

/-- The name and the value of a word that assigns one. -/
def assignment? : Word → Option (String × Word)
  | .text t false :: r =>
    let name := t.toList.takeWhile isNamePart
    match t.toList.drop name.length with
    | '=' :: rest =>
      if name.head?.any isNameStart then
        some (String.ofList name, .text (String.ofList rest) false :: r)
      else none
    | _ => none
  | _ => none

end Assay.Shell
