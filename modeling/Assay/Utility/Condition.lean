import Assay.Utility.Escapes

/-!
# Utility — conditions

What `test` says of its arguments: tests of a text, of a file, of two texts, numbers or files,
turned round, connected and put in brackets. How many arguments there are decides how some of them
are read.

* `Condition.run`: the command under both of its names.
-/

namespace Assay.Condition

/-! ### Signs -/

/-- What an argument may be besides an operand. -/
inductive Sign where
  | unary
  | binary
  | negation
  | both
  | either
  | opens
  | closes
  deriving DecidableEq, Repr

/-- The tests of one operand. -/
def unaries : List String :=
  ["-r", "-w", "-x", "-e", "-f", "-d", "-c", "-b", "-p", "-u", "-g", "-k", "-s", "-t", "-z", "-n",
   "-h", "-O", "-G", "-L", "-S"]

/-- The tests of two operands. -/
def binaries : List String :=
  ["=", "!=", "<", ">", "-eq", "-ne", "-ge", "-gt", "-le", "-lt", "-nt", "-ot", "-ef"]

def sign? (s : String) : Option Sign :=
  if unaries.contains s then some .unary
  else if binaries.contains s then some .binary
  else
    match s with
    | "!"  => some .negation
    | "-a" => some .both
    | "-o" => some .either
    | "("  => some .opens
    | ")"  => some .closes
    | _    => none

/-! ### Single tests -/

/-- What stands at a path. -/
def entryAt (fs : FileSystem) (follow : Bool) (operand : String) : Option (Loc × Entry) :=
  (fs.lookup follow (.ofOctets operand)).toOption

/-- A test of one operand. -/
def unary (fs : FileSystem) (test operand : String) : Except String Bool :=
  let entry := (entryAt fs true operand).map (·.2)
  match test with
  | "-n" => .ok (!operand.isEmpty)
  | "-z" => .ok operand.isEmpty
  | "-t" => (decimal operand).map fun _ => false
  | "-h" | "-L" => .ok ((entryAt fs false operand).any fun e =>
      match e.2 with
      | .link _ => true
      | _       => false)
  | "-f" => .ok (entry.any fun
      | .file _ => true
      | _       => false)
  | "-d" => .ok (entry == some .dir)
  | "-c" => .ok (entry.any fun
      | .device _ => true
      | _         => false)
  | "-s" => .ok (entry.any fun
      | .file f   => !f.content.isEmpty
      | .device _ => false
      | _         => true)
  | "-x" => .ok (entry.any fun
      | .file f   => f.executable
      | .device _ => false
      | _         => true)
  | "-b" | "-p" | "-u" | "-g" | "-k" | "-S" => .ok false
  | _    => .ok entry.isSome

/-- The tests that compare two numbers. -/
def comparison? : String → Option (Int → Int → Bool)
  | "-eq" => some fun a b => a == b
  | "-ne" => some fun a b => a != b
  | "-lt" => some fun a b => decide (a < b)
  | "-le" => some fun a b => decide (a ≤ b)
  | "-gt" => some fun a b => decide (b < a)
  | "-ge" => some fun a b => decide (b ≤ a)
  | _     => none

/-- A test of two operands. No file is older than another one. -/
def binary (fs : FileSystem) (a test b : String) : Except String Bool :=
  match test with
  | "="   => .ok (a == b)
  | "!="  => .ok (a != b)
  | "<"   => .ok (decide (a < b))
  | ">"   => .ok (decide (b < a))
  | "-ef" =>
    match entryAt fs true a, entryAt fs true b with
    | some x, some y => .ok (x.1 == y.1)
    | _, _           => .ok false
  | _     =>
    match comparison? test with
    | some compare => do pure (compare (← decimal a) (← decimal b))
    | none         => .ok false

/-! ### Whole conditions -/

/-- A position in the arguments. -/
abbrev Reading := StateT Nat (Except String)

structure Given where
  fs : FileSystem
  args : List String

namespace Given

variable (g : Given)

def arg? (i : Nat) : Option String := g.args[i]?

/-- Whether a test of one operand at a position is an operand itself. -/
def isOperand (i : Nat) : Bool :=
  match g.arg? (i + 1), g.arg? (i + 2) with
  | none, _        => true
  | some _, none   => false
  | some s, some _ => sign? s == some .binary

/-- What stands at a position: nothing, an operand or a sign. -/
def token (i : Nat) : Option (Option Sign) :=
  (g.arg? i).map fun s =>
    match sign? s with
    | some .unary => if g.isOperand i then none else some .unary
    | some .opens => if (g.arg? (i + 1)).isNone then none else some .opens
    | sign        => sign

def fault {α : Type} (i : Nat) (why : String) : Reading α :=
  match g.arg? i with
  | none | some "" => throw why
  | some s         => throw (s ++ ": " ++ why)

mutual

/-- Conditions of which one is enough. -/
def disjunction : Nat → Option (Option Sign) → Reading Bool
  | 0, _     => pure false
  | k + 1, t => do
    let first ← conjunction k t
    let i ← get
    if g.token (i + 1) = some (some .either) then
      set (i + 2)
      let second ← disjunction k (g.token (i + 2))
      pure (first || second)
    else pure first

/-- Conditions that must all hold. -/
def conjunction : Nat → Option (Option Sign) → Reading Bool
  | 0, _     => pure false
  | k + 1, t => do
    let first ← negation k t
    let i ← get
    if g.token (i + 1) = some (some .both) then
      set (i + 2)
      let second ← conjunction k (g.token (i + 2))
      pure (first && second)
    else pure first

def negation : Nat → Option (Option Sign) → Reading Bool
  | 0, _     => pure false
  | k + 1, t => do
    if t = some (some .negation) then
      let i ← get
      let t := g.token (i + 1)
      if t.isSome then set (i + 1)
      let inner ← negation k t
      pure (!inner)
    else primary k t

/-- A single test or a condition in brackets. -/
def primary : Nat → Option (Option Sign) → Reading Bool
  | 0, _     => pure false
  | k + 1, t => do
    let i ← get
    match t with
    | none               => pure false
    | some (some .opens) =>
      set (i + 1)
      let t := g.token (i + 1)
      if t = some (some .closes) then pure false
      else
        let inner ← disjunction k t
        modify (· + 1)
        if g.token (← get) = some (some .closes) then pure inner
        else throw "closing paren expected"
    | some (some .unary) =>
      set (i + 1)
      match g.arg? i, g.arg? (i + 1) with
      | some test, some operand => (unary g.fs test operand : Except String Bool)
      | _, _                    => g.fault i "argument expected"
    | some _ =>
      match g.arg? i, g.token (i + 1), g.arg? (i + 1) with
      | some a, some (some .binary), some test =>
        set (i + 2)
        match g.arg? (i + 2) with
        | some b => (binary g.fs a test b : Except String Bool)
        | none   => g.fault (i + 1) "argument expected"
      | some a, _, _ => pure (!a.isEmpty)
      | none, _, _   => pure false

end

/-- Reads a whole condition from the front. -/
def whole (t : Option (Option Sign)) : Except String Bool := do
  let (holds, i) ← (g.disjunction (8 * g.args.length + 8) t).run 0
  match g.arg? i, g.arg? (i + 1) with
  | some _, some _ => (·.1) <$> (g.fault i "unexpected operator" : Reading Bool).run 0
  | _, _           => pure holds

end Given

/-- Whether a condition holds, or does not if `turned` is set. Of three or four arguments a mark in
front turns the rest round, and another one behind it changes nothing. -/
def holds (fs : FileSystem) (turned : Bool) : List String → Except String Bool
  | []        => .ok false
  | a :: args =>
    let all := a :: args
    let isBracketed := a = "(" ∧ all.getLast? = some ")"
    let whole (args : List String) : Except String Bool :=
      let g := Given.mk fs args
      (· != turned) <$> g.whole (g.token 0)
    match all with
    | [_, test, _] =>
      if sign? test = some .binary then (· != turned) <$> (Given.mk fs all).whole (some none)
      else if isBracketed then whole args.dropLast
      else if a = "!" then holds fs true args
      else whole all
    | [_, _, _, _] =>
      if isBracketed then whole args.dropLast
      else if a = "!" then holds fs true args
      else whole all
    | all => whole all

/-- The command; with a bracket for its name it has another one behind its arguments. -/
def run (fs : FileSystem) (c : Caller) (name : String) (args : List String) : Effect :=
  let judge (args : List String) : Effect :=
    match holds fs false args with
    | .ok b      => ⟨[], if b then 0 else 1⟩
    | .error why => .say (c.message name why) 2
  if name = "[" then
    if args.getLast?.any (·.startsWith "]") then judge args.dropLast
    else .say (c.message name "missing ]") 2
  else judge args

end Assay.Condition
