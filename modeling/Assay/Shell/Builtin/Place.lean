import Assay.Shell.Builtin.Basic
import Assay.Utility.Chmod

/-!
# Shell — parts that deal with the process itself

The directory that it works in, the permissions of its new files, and what it may use up.

* `Place.change`, `Place.tell`, `Place.mask`.
-/

namespace Assay.Shell.Builtin.Place

/-- The directory of the process by its location. -/
def physical : Sh String :=
  Sh.code (Code.look fun id s => Text.Octets.ofBytes (Loc.path (s.filesOf id).cwd).bytes)

/-- An absolute path without dots, each pair of them taking a name with it. Just two slashes in front
are kept. -/
def settled (path : String) : String :=
  let step (names : List String) (n : String) : List String :=
    if n.isEmpty || n = "." then names
    else if n = ".." then names.tail
    else n :: names
  let slashes := (path.toList.takeWhile (· = '/')).length
  (if slashes = 2 then "//" else "/") ++
    String.intercalate "/" ((path.splitOn "/").foldl step []).reverse

/-- A path as it is seen from a directory. -/
def seenFrom (dir path : String) : String :=
  if path.startsWith "/" then settled path
  else settled (dir ++ (if dir.endsWith "/" then "" else "/") ++ path)

/-- The directories that a path is looked for in; none for a path that says where it starts. -/
def bases (s : State) (path : String) : List String :=
  let free : Bool :=
    match path.toList with
    | '/' :: _ | ['.'] | '.' :: '/' :: _ | ['.', '.'] | '.' :: '.' :: '/' :: _ => false
    | _                                                                        => true
  if free then ((s.value? "CDPATH").map (·.splitOn ":")).getD [] else []

/-- Goes to a directory. -/
def goTo (isPhysical : Bool) (path : String) : Sh Bool := do
  let s ← get
  let target := if isPhysical then path else seenFrom s.place path
  let moved ← Sh.code (Code.call fun id sys =>
    match (sys.filesOf id).openDir (.ofOctets target) with
    | .ok l    => (true, sys.modify id fun p => { p with directory := l })
    | .error _ => (false, sys))
  if moved then do
    let place ← if isPhysical then physical else pure target
    Sh.assign "OLDPWD" (some s.place) true false
    Sh.assign "PWD" (some place) true false
    modify fun s => { s with place := place }
  pure moved

/-- The first of some paths that leads to a directory. -/
def firstDir (paths : List String) : Sh (Option String) :=
  Sh.code (Code.look fun id s => paths.find? fun p => (s.filesOf id).isDir (.ofOctets p))

/-- Changes the directory. -/
def change : Part := fun _ args => do
  let (letters, operands) ← options "LP" args
  let isPhysical := letters.getLast?.any (·.1 = 'P')
  let s ← get
  let wanted := operands.headD ((s.value? "HOME").getD "")
  let back := operands.head? = some "-"
  let wanted := if back then (s.value? "OLDPWD").getD "" else wanted
  let path := if wanted.isEmpty then "." else wanted
  let bases := bases s path
  let below := bases.map fun d => if d.isEmpty then path else d ++ "/" ++ path
  let found ← firstDir below
  if ← goTo isPhysical (found.getD path) then do
    let isElsewhere := found.any (· != path)
    let s ← get
    if isElsewhere || back then say (s.place ++ "\n") else done
  else Sh.fail ("can't cd to " ++ wanted)

/-- Shows the directory. -/
def tell : Part := fun _ args => do
  let (letters, _) ← options "LP" args
  let place ← if letters.getLast?.any (·.1 = 'P') then physical else do pure (← get).place
  say (place ++ "\n")

/-! ### Permissions -/

/-- Three octal digits with a zero in front. -/
def octal (n : Nat) : String :=
  let digits := Nat.toDigits 8 n
  String.ofList (List.replicate (4 - digits.length) '0' ++ digits)

/-- The permissions that are given, in letters. -/
def inLetters (mask : Nat) : String :=
  let given := 0o777 - (mask &&& 0o777)
  let part (shift : Nat) : String :=
    let bits := given >>> shift
    (if bits &&& 4 ≠ 0 then "r" else "") ++ (if bits &&& 2 ≠ 0 then "w" else "") ++
      (if bits &&& 1 ≠ 0 then "x" else "")
  "u=" ++ part 6 ++ ",g=" ++ part 3 ++ ",o=" ++ part 0

/-- One of three octal digits with everybody's permissions, put in the places of some people. -/
def given (mode places : Nat) (letters : List Char) : Nat :=
  let bit (c : Char) : Nat :=
    match c with
    | 'r' => 4
    | 'w' => 2
    | 'x' => 1
    | 'u' => mode >>> 6
    | 'g' => mode >>> 3
    | 'o' => mode
    | 'X' => if mode &&& 0o111 ≠ 0 then 1 else 0
    | _   => 0
  (letters.foldl (fun n c => n ||| bit c) 0 &&& 7) * places

/-- Applies changes of permissions in letters to some permissions. Letters that copy permissions mean
those before all changes. -/
def changed? (mode : Nat) : Nat → Nat → Nat → List Char → Option Nat
  | 0, _, new, _          => some new
  | _ + 1, _, new, []     => some new
  | k + 1, places, new, cs =>
    let who := cs.takeWhile ("ugoa".toList.contains ·)
    let places := who.foldl (fun n c =>
      n ||| (if c = 'u' then 0o100 else if c = 'g' then 0o10 else if c = 'o' then 1 else 0o111))
      places
    let places := if places = 0 then 0o111 else places
    match cs.drop who.length with
    | []        => some new
    | sign :: r =>
      if !"+-=".toList.contains sign then none
      else
        let letters := r.takeWhile ("rwxugoXs".toList.contains ·)
        let bits := given mode places letters
        let new :=
          if sign = '+' then new ||| bits
          else if sign = '-' then Chmod.without new bits
          else Chmod.without new (places * 7) ||| bits
        match r.drop letters.length with
        | ',' :: r  => changed? mode k 0 new r
        | []        => some new
        | sign :: r =>
          if "+-=".toList.contains sign then changed? mode k places new (sign :: r) else none

/-- Shows or sets the permissions that new files do not get. -/
def mask : Part := fun _ args => do
  let (letters, operands) ← options "S" args
  let current ← Sh.code (Code.look fun id s => ((s.process? id).map (·.mask)).getD 0o022)
  let setTo (n : Nat) : Sh Answer := do
    Sh.code (Code.change fun id s => s.modify id fun p => { p with mask := n &&& 0o777 })
    done
  match operands with
  | []     => say ((if letters.isEmpty then octal current else inLetters current) ++ "\n")
  | a :: _ =>
    if a.toList.head?.any Char.isDigit then
      match readDigits 8 a.length a.toList with
      | (_, n, []) => setTo n
      | _          => Sh.fail ("Illegal number: " ++ a)
    else
      let mode := 0o777 - (current &&& 0o777)
      match changed? mode (a.length + 1) 0 mode a.toList with
      | some mode => setTo (0o777 - (mode &&& 0o777))
      | none      => Sh.fail ("Illegal mode: " ++ a)

/-! ### Resources -/

/-- Shows that nothing is limited. -/
def limits : Part := fun _ args => do
  let (_, operands) ← options "HSatfdscmlpnvwr" args
  if operands.isEmpty then say "unlimited\n" else done

/-- Shows the time that has been used up, which is not measured. -/
def times : Part := fun _ _ =>
  say "0m0.000000s 0m0.000000s\n0m0.000000s 0m0.000000s\n"

end Assay.Shell.Builtin.Place
