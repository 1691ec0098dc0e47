import Assay.Shell.Lookup

/-!
# Shell — what the parts of the shell have in common

A part of the shell takes arguments and comes to a status and to a text, which is printed once it is
through. Options stand in front of the other arguments and are single letters.

* `Answer`: what a part comes to.
* `Builtin.options`: the options among some arguments.
-/

namespace Assay.Shell

/-- What a part of the shell comes to. -/
structure Answer where
  status : Nat := 0
  text : String := ""
  deriving DecidableEq, Repr

namespace Builtin

/-- A part of the shell; it takes the name that it goes by and its arguments. -/
abbrev Part := String → List String → Sh Answer

def done : Sh Answer := pure {}

def say (text : String) : Sh Answer := pure ⟨0, text⟩

/-- The letters of one argument; `takes` says of each known letter whether an argument goes with it. Also
gives the arguments behind it. -/
def lettersOf (takes : Char → Option Bool) :
    List Char → List String → Sh (List (Char × String) × List String)
  | [], args     => pure ([], args)
  | c :: r, args =>
    match takes c with
    | none       => Sh.fail ("Illegal option -" ++ String.singleton c)
    | some true  =>
      match r, args with
      | [], []        => Sh.fail ("No arg for -" ++ String.singleton c ++ " option")
      | [], a :: args => pure ([(c, a)], args)
      | r, args       => pure ([(c, String.ofList r)], args)
    | some false => do
      let (more, args) ← lettersOf takes r args
      pure ((c, "") :: more, args)

/-- The options among some arguments, and the arguments behind them; two hyphens end the options. -/
def optionsUpTo (takes : Char → Option Bool) :
    Nat → List String → Sh (List (Char × String) × List String)
  | 0, args     => pure ([], args)
  | _, []       => pure ([], [])
  | k + 1, a :: r =>
    match a.toList with
    | ['-', '-']    => pure ([], r)
    | '-' :: c :: w => do
      let (first, r) ← lettersOf takes (c :: w) r
      let (more, r) ← optionsUpTo takes k r
      pure (first ++ more, r)
    | _             => pure ([], a :: r)

/-- The options among some arguments. In `known` a colon stands behind letters that an argument goes
with. -/
def options (known : String) (args : List String) : Sh (List (Char × String) × List String) :=
  let letters := known.toList
  let takes (c : Char) : Option Bool :=
    if c = ':' || !letters.contains c then none
    else some ((letters.dropWhile (· ≠ c)).drop 1 |>.head? |>.any (· = ':'))
  optionsUpTo takes (args.length + 1) args

/-- A text in quotes so that a shell reads it as it is: runs of quotes stand in other quotes. -/
def quoted (s : String) : String :=
  let rec go : Nat → List Char → List Char
    | 0, _      => []
    | k + 1, cs =>
      let plain := cs.takeWhile (· ≠ '\x27')
      let rest := cs.drop plain.length
      let quotes := rest.takeWhile (· = '\x27')
      let rest := rest.drop quotes.length
      '\x27' :: plain ++ ['\x27'] ++
        (if quotes.isEmpty then [] else '"' :: quotes ++ ['"']) ++
        (if rest.isEmpty then [] else go k rest)
  String.ofList (go (s.length + 1) s.toList)

/-- Names in the order in which a table of so many rows has them. -/
def inTableOrder {α : Type} (rows : Nat) (entries : List (String × α)) : List (String × α) :=
  let row (name : String) : Nat :=
    let codes := name.toList.map Char.toNat
    (codes.headD 0 * 16 + codes.foldl (· + ·) 0) % 32768 % rows
  entries.mergeSort fun a b => decide (row a.1 ≤ row b.1)

end Builtin

end Assay.Shell
