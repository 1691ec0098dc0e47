import Assay.Shell.State
import Assay.Utility.Escapes

/-!
# Shell — arithmetic

Expressions on whole numbers of sixty-four bits, with the operators of a familiar language. Names
stand for the values of parameters. An expression is evaluated while it is read, so of two faults
the one further in front shows.

* `Arithmetic.value`: the value of an expression.
-/

namespace Assay.Shell.Arithmetic

/-- The operators between two numbers. -/
inductive Operator where
  | mul | div | rem | add | sub | left | right | lt | le | gt | ge | eq | ne | band | bxor | bor
  deriving DecidableEq, Repr

inductive Sign where
  | number (n : Int)
  | name (s : String)
  | op (o : Operator)
  /-- A value for a name; perhaps combined with the one that it has. -/
  | assign (o : Option Operator)
  | bang | tilde | opening | closing | question | colon | both | either
  | unknown
  deriving DecidableEq, Repr

/-- Which operators bind closer than others. -/
def Operator.level : Operator → Nat
  | .mul | .div | .rem       => 0
  | .add | .sub              => 1
  | .left | .right           => 2
  | .lt | .le | .gt | .ge    => 3
  | .eq | .ne                => 4
  | .band                    => 5
  | .bxor                    => 6
  | .bor                     => 7

def lowest : Nat := 8

/-! ### Signs -/

/-- The signs by their text, the longer ones first. -/
def signs : List (String × Sign) :=
  [("<<=", .assign (some .left)), (">>=", .assign (some .right)), ("&&", .both), ("||", .either),
   ("==", .op .eq), ("!=", .op .ne), ("<=", .op .le), (">=", .op .ge), ("<<", .op .left),
   (">>", .op .right), ("*=", .assign (some .mul)), ("/=", .assign (some .div)),
   ("%=", .assign (some .rem)), ("+=", .assign (some .add)), ("-=", .assign (some .sub)),
   ("&=", .assign (some .band)), ("^=", .assign (some .bxor)), ("|=", .assign (some .bor)),
   ("=", .assign none), ("*", .op .mul), ("/", .op .div), ("%", .op .rem), ("+", .op .add),
   ("-", .op .sub), ("<", .op .lt), (">", .op .gt), ("&", .op .band), ("^", .op .bxor),
   ("|", .op .bor), ("!", .bang), ("~", .tilde), ("(", .opening), (")", .closing),
   ("?", .question), (":", .colon)]

/-- Reads a whole number with or without a base in front. A number too large is the largest. -/
def readNumber (cs : List Char) : Nat × List Char :=
  let digits (base : Nat) (cs : List Char) : Nat × Nat × List Char := readDigits base cs.length cs
  match cs with
  | '0' :: x :: r =>
    if x = 'x' || x = 'X' then
      match digits 16 r with
      | (0, _, _)       => (0, x :: r)
      | (_, n, rest)    => (n, rest)
    else
      let (_, n, rest) := digits 8 (x :: r)
      (n, rest)
  | cs =>
    let (_, n, rest) := digits 10 cs
    (n, rest)

def largest : Int := 9223372036854775807

def smallest : Int := -9223372036854775808

/-- A number as sixty-four bits hold it. -/
def wrap (n : Int) : Int := Int.bmod n 18446744073709551616

/-- Cuts an expression into signs. -/
def cut : Nat → List Char → List Sign
  | 0, _          => []
  | _, []         => []
  | k + 1, c :: r =>
    if c = ' ' || c = '\t' || c = '\n' then cut k r
    else if c.isDigit then
      let (n, rest) := readNumber (c :: r)
      .number (min n largest) :: cut k rest
    else if isNameStart c then
      .name (String.ofList ((c :: r).takeWhile isNamePart)) ::
        cut k ((c :: r).dropWhile isNamePart)
    else
      match signs.find? fun s => s.1.toList.isPrefixOf (c :: r) with
      | some (text, s) => s :: cut k ((c :: r).drop text.length)
      | none           => [.unknown]

/-! ### Numbers in parameters -/

def isSpace (c : Char) : Bool := " \t\n\x0b\x0c\r".toList.contains c

/-- The number that a text stands for as a value; nothing stands for zero. -/
def numberOf? (s : String) : Option Int :=
  let cs := s.toList.dropWhile isSpace
  let (negative, digits) : Bool × List Char :=
    match cs with
    | '-' :: r => (true, r)
    | '+' :: r => (false, r)
    | r        => (false, r)
  let (n, rest) := readNumber digits
  let n : Int := if negative then -(n : Int) else n
  let rest := if digits.head?.any Char.isDigit then rest else s.toList
  if n > largest || n < smallest then none
  else if rest.all isSpace then some n
  else none

/-- The value of a name. -/
def lookUp (name : String) : Sh Int := do
  let text := ((← get).value? name).getD ""
  match numberOf? text with
  | some n => pure n
  | none   => Sh.fail ("Illegal number: " ++ text)

/-! ### Evaluation -/

/-- An expression as it is read: its text and the signs left. -/
abbrev Reading := StateT (List Sign) Sh

section

variable (text : String)

def fault {α : Type} (why : String) : Reading α :=
  (Sh.fail ("arithmetic expression: " ++ why ++ ": \"" ++ text ++ "\"") : Sh α)

/-- The next sign, taken away; none at the end. -/
def take : Reading (Option Sign) := do
  let signs ← get
  set signs.tail
  pure signs.head?

def peek : Reading (Option Sign) := do pure (← get).head?

/-- What an operator makes of two numbers. The one quotient that does not fit ends the process. -/
def combine (o : Operator) (a b : Int) : Reading Int :=
  let truth (p : Prop) [Decidable p] : Reading Int := pure (if p then 1 else 0)
  let bits (f : BitVec 64 → BitVec 64 → BitVec 64) : Reading Int :=
    pure (f (BitVec.ofInt 64 a) (BitVec.ofInt 64 b)).toInt
  let divide (f : Int → Int → Int) : Reading Int :=
    if b = 0 then fault text "division by zero"
    else if a = smallest ∧ b = -1 then (Sh.code (Code.exit (.signal 8)) : Sh Int)
    else pure (f a b)
  match o with
  | .mul   => pure (wrap (a * b))
  | .div   => divide Int.tdiv
  | .rem   => divide Int.tmod
  | .add   => pure (wrap (a + b))
  | .sub   => pure (wrap (a - b))
  | .left  => bits fun x _ => x <<< (b % 64).toNat
  | .right => bits fun x _ => x.sshiftRight (b % 64).toNat
  | .lt    => truth (a < b)
  | .le    => truth (a ≤ b)
  | .gt    => truth (a > b)
  | .ge    => truth (a ≥ b)
  | .eq    => truth (a = b)
  | .ne    => truth (a ≠ b)
  | .band  => bits (· &&& ·)
  | .bxor  => bits (· ^^^ ·)
  | .bor   => bits (· ||| ·)

mutual

/-- A value for a name, or a choice. Names are not looked at where `skips` is set. -/
def assignment : Nat → Bool → Reading Int
  | 0, _         => fault text "expecting primary"
  | k + 1, skips => do
    match ← get with
    | .name s :: .assign o :: r =>
      set r
      let b ← assignment k skips
      if skips then pure b
      else
        let n ← match o with
          | none   => pure b
          | some o => do
            let a ← (lookUp s : Sh Int)
            combine text o a b
        (Sh.setVar s (toString n) : Sh Unit)
        pure n
    | _ => choice k skips

/-- One of two values. -/
def choice : Nat → Bool → Reading Int
  | 0, _         => fault text "expecting primary"
  | k + 1, skips => do
    let a ← either k skips
    if (← peek) = some .question then
      let _ ← take
      let b ← assignment k (skips || a = 0)
      if (← take) ≠ some .colon then fault text "expecting ':'"
      let c ← choice k (skips || a ≠ 0)
      pure (if a ≠ 0 then b else c)
    else pure a

def either : Nat → Bool → Reading Int
  | 0, _         => fault text "expecting primary"
  | k + 1, skips => do
    let a ← both k skips
    if (← peek) = some .either then
      let _ ← take
      let b ← either k (skips || a ≠ 0)
      pure (if a ≠ 0 ∨ b ≠ 0 then 1 else 0)
    else pure a

def both : Nat → Bool → Reading Int
  | 0, _         => fault text "expecting primary"
  | k + 1, skips => do
    let a ← primary k skips
    let a ← operation k skips lowest a
    if (← peek) = some .both then
      let _ ← take
      let b ← both k (skips || a = 0)
      pure (if a ≠ 0 ∧ b ≠ 0 then 1 else 0)
    else pure a

/-- Goes on behind a value with operators that bind closer than some level. -/
def operation : Nat → Bool → Nat → Int → Reading Int
  | 0, _, _, _             => fault text "expecting primary"
  | k + 1, skips, level, a => do
    match ← peek with
    | some (.op o) =>
      if o.level < level then
        let _ ← take
        let b ← primary k skips
        let b ← operation k skips o.level b
        let c ← if skips then pure b else combine text o a b
        operation k skips level c
      else pure a
    | _ => pure a

def primary : Nat → Bool → Reading Int
  | 0, _         => fault text "expecting primary"
  | k + 1, skips => do
    match ← take with
    | some (.number n)  => pure n
    | some (.name s)    => if skips then pure 0 else (lookUp s : Sh Int)
    | some (.op .add)   => primary k skips
    | some (.op .sub)   => do pure (wrap (-(← primary k skips)))
    | some .bang        => do pure (if (← primary k skips) = 0 then 1 else 0)
    | some .tilde       => do pure (-(← primary k skips) - 1)
    | some .opening     => do
      let a ← assignment k skips
      if (← take) ≠ some .closing then fault text "expecting ')'"
      pure a
    | _                 => fault text "expecting primary"

end

end

/-- The value of an expression. -/
def value (text : String) : Sh Int := do
  let signs := cut (text.length + 1) text.toList
  let (n, rest) ← (assignment text (signs.length * 10 + 10) false).run signs
  if rest.isEmpty then pure n
  else (fault text "expecting EOF" : Reading Int).run' rest

end Assay.Shell.Arithmetic
