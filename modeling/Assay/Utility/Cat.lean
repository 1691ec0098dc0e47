import Assay.Utility.Quoting

/-!
# Utility — cat

Prints one file after the other, with line numbers, marks and names for what cannot be printed if it
is told so.
-/

namespace Assay.Cat

def options : Utility.Options where
  letters := "AbeEnstTuv".toList
  words :=
    [("number-nonblank", 'b', false), ("number", 'n', false), ("squeeze-blank", 's', false),
     ("show-nonprinting", 'v', false), ("show-ends", 'E', false), ("show-tabs", 'T', false),
     ("show-all", 'A', false), ("help", 'h', false), ("version", 'V', false)]

/-- What is done to the text. -/
structure Style where
  number : Bool
  onlyFilled : Bool
  squeeze : Bool
  ends : Bool
  tabs : Bool
  hidden : Bool
  deriving DecidableEq, Repr

def Style.ofChoices (cs : List Utility.Choice) : Style :=
  let has (letters : String) : Bool := cs.any fun c => letters.toList.contains c.1
  ⟨has "nb", has "b", has "s", has "AeE", has "AtT", has "Aetv"⟩

def Style.isPlain (s : Style) : Bool := s == ⟨false, false, false, false, false, false⟩

/-- Printing under way: the lines begun so far, and the line ends in a row, none inside a line. -/
structure State where
  line : Nat := 0
  ends : Option Nat := some 0

/-- A byte as it shows. -/
def show? (s : Style) (c : Char) : List Char :=
  let low (n : Nat) : List Char :=
    if n = 127 then ['^', '?']
    else if n < 32 then ['^', Char.ofNat (n + 64)]
    else [Char.ofNat n]
  if c = '\t' then if s.tabs then ['^', 'I'] else ['\t']
  else if !s.hidden then [c]
  else if c.toNat < 128 then low c.toNat
  else 'M' :: '-' :: low (c.toNat - 128)

/-- The number in front of a line. -/
def numbered (n : Nat) : List Char :=
  let ds := Nat.toDigits 10 n
  List.replicate (6 - ds.length) ' ' ++ ds ++ ['\t']

/-- What is printed for one byte. -/
def cook (s : Style) (st : State) (c : Char) : List Char × State :=
  if c = '\n' then
    let ends := min (st.ends.elim 0 (· + 1)) 2
    if s.squeeze && ends = 2 then ([], { st with ends := some 2 })
    else
      let counts := st.ends.isSome && s.number && !s.onlyFilled
      let line := if counts then st.line + 1 else st.line
      ((if counts then numbered line else []) ++ (if s.ends then ['$'] else []) ++ ['\n'],
        ⟨line, some ends⟩)
  else if st.ends.isSome && s.number then
    (numbered (st.line + 1) ++ show? s c, ⟨st.line + 1, none⟩)
  else (show? s c, { st with ends := none })

def cookAll (s : Style) (st : State) (text : String) : String × State :=
  let (out, st) := text.toList.foldl (fun (acc : List Char × State) c =>
    let (cs, st) := cook s acc.2 c
    (cs.reverse ++ acc.1, st)) ([], st)
  (String.ofList out.reverse, st)

/-- Prints a stream; how the reading and the writing went. -/
def stream (s : Style) (fd : Nat) : Nat → State →
    Code (Except Errno Unit × Except Errno Unit × State)
  | 0, _      => Code.stuck
  | k + 1, st => do
    match ← Code.read fd none with
    | .error why => pure (.error why, .ok (), st)
    | .ok []     => pure (.ok (), .ok (), st)
    | .ok data   =>
      let (data, st) :=
        if s.isPlain then (data, st)
        else
          let (text, st) := cookAll s st (Text.Octets.ofBytes data)
          (Text.Octets.toBytes text, st)
      match ← Code.write 1 data with
      | .error why => pure (.ok (), .error why, st)
      | .ok ()     => stream s fd k st

/-- Whether a stream is the file that is written to, in front of where that is done. -/
def readsOutput (fd : Nat) : Code Bool :=
  Code.look fun id s =>
    match s.opening? id fd, s.opening? id 1 with
    | some (_, a), some (_, b) =>
      match a.channel, b.channel with
      | .file l, .file m =>
        let size :=
          match s.files.get? l with
          | some (.file f) => f.content.length
          | _              => 0
        l == m && decide (a.position < if b.appends then size else b.position)
      | _, _ => false
    | _, _ => false

/-- Prints files. -/
def files (name : String) (s : Style) : List String → State → Nat → Code Nat
  | [], _, status      => pure status
  | f :: r, st, status => do
    let fail (why : String) : Code Unit :=
      Code.tell 2 (name ++ ": " ++ Quoting.ifNeeded f ++ ": " ++ why ++ "\n")
    let source ← if f = "-" then pure (.ok 0) else Code.openPath (.ofOctets f) .read
    match source with
    | .error (.os why) =>
      fail why.text
      files name s r st 1
    | .error why       =>
      fail why.message
      files name s r st 1
    | .ok fd           =>
      if ← readsOutput fd then
        fail "input file is output file"
        files name s r st 1
      else
        let (readEnd, writeEnd, st) ← stream s fd Code.copyLimit st
        if f ≠ "-" then Code.close fd
        match readEnd, writeEnd with
        | _, .error why =>
          Code.tell 2 (name ++ ": write error: " ++ why.text ++ "\n")
          pure 1
        | .error why, _ =>
          fail why.text
          files name s r st 1
        | .ok (), .ok () => files name s r st status

/-- The program. -/
def program : Utility.Program := fun name args =>
  options.withOperands name args fun choices operands => do
    if choices.any fun c => c.1 = 'h' || c.1 = 'V' then pure 0
    else
      let isOpen ← Code.look fun id s => (s.opening? id 1).isSome
      if !isOpen then Utility.complain name "standard output: Bad file descriptor"
      else
        let status ← files name (.ofChoices choices) (if operands.isEmpty then ["-"] else operands)
          {} 0
        let hasInput ← Code.look fun id s => (s.opening? id 0).isSome
        if (operands.isEmpty || operands.contains "-") && !hasInput then
          Utility.complain name "closing standard input: Bad file descriptor"
        else pure status

end Assay.Cat
