import Assay.Utility.Quoting

/-!
# Utility — chmod

Changes who may do what with a file. Of all permissions a file keeps only whether it may be started;
the others are those that files commonly have.
-/

namespace Assay.Chmod

/-- The permissions of a file, three digits in base eight. -/
def modeOf (executable : Bool) : Nat := if executable then 0o755 else 0o644

/-- Whether somebody may start a file. -/
def isStartable (mode : Nat) : Bool := mode &&& 0o111 != 0

/-- The bits of some of the letters `ugo`; of none of them, all bits that the mask leaves. -/
def whoBits (who : List Char) (mask : Nat) : Nat :=
  if who.isEmpty then 0o7777 - (mask &&& 0o7777)
  else
    who.foldl (fun n c =>
      n ||| (if c = 'u' then 0o4700 else if c = 'g' then 0o2070 else if c = 'o' then 0o1007
        else 0o7777)) 0

/-- The bits of a letter for everybody, given the permissions so far. -/
def permissionBits (mode : Nat) (isDir : Bool) (c : Char) : Nat :=
  let copied (n : Nat) : Nat := n * 0o111
  match c with
  | 'r' => 0o444
  | 'w' => 0o222
  | 'x' => 0o111
  | 'X' => if isDir || isStartable mode then 0o111 else 0
  | 's' => 0o6000
  | 't' => 0o1000
  | 'u' => copied (mode / 0o100 % 8)
  | 'g' => copied (mode / 0o10 % 8)
  | _   => copied (mode % 8)

/-- Bits that are in one number and not in another. -/
def without (a b : Nat) : Nat := a - (a &&& b)

/-- The permissions behind a sign: a number, a letter whose permissions are copied, or letters. Also
says whether it is a number, and gives what follows. -/
def permissionsOf (isDir : Bool) (mode : Nat) (cs : List Char) : Nat × Bool × List Char :=
  let octal := cs.takeWhile fun c => '0' ≤ c ∧ c ≤ '7'
  if !octal.isEmpty then
    (octal.foldl (fun n c => n * 8 + (c.toNat - '0'.toNat)) 0, true, cs.drop octal.length)
  else
    match cs with
    | 'u' :: r => (permissionBits mode isDir 'u', false, r)
    | 'g' :: r => (permissionBits mode isDir 'g', false, r)
    | 'o' :: r => (permissionBits mode isDir 'o', false, r)
    | cs       =>
      let letters := cs.takeWhile ("rwxXst".toList.contains ·)
      (letters.foldl (fun n c => n ||| permissionBits mode isDir c) 0, false,
        cs.drop letters.length)

/-- Applies what follows the letters for whom a change is: signs with permissions. A number is for
everybody and ends the change. -/
def actions (who : List Char) (mask : Nat) (isDir : Bool) :
    Nat → List Char → Nat → Option (Nat × List Char)
  | 0, _, _         => none
  | k + 1, cs, mode =>
    match cs with
    | sign :: r =>
      if "+-=".toList.contains sign then
        let (bits, isNumber, rest) := permissionsOf isDir mode r
        let isWrong := isNumber &&
          (0o7777 < bits || !who.isEmpty || (!rest.isEmpty && rest.head? != some ','))
        if isWrong then none
        else
          let able := if isNumber then 0o7777 else whoBits who mask
          let bits := bits &&& able
          let mode :=
            if sign = '+' then mode ||| bits
            else if sign = '-' then without mode bits
            else without mode (if who.isEmpty then 0o7777 else able) ||| bits
          match rest with
          | c :: _ =>
            if "+-=".toList.contains c then actions who mask isDir k rest mode
            else some (mode, rest)
          | []     => some (mode, [])
      else none
    | [] => none

/-- Applies changes with commas between them. -/
def clauses (mask : Nat) (isDir : Bool) : Nat → List Char → Nat → Option Nat
  | 0, _, _         => none
  | k + 1, cs, mode => do
    let who := cs.takeWhile ("ugoa".toList.contains ·)
    let (mode, rest) ← actions who mask isDir (cs.length + 1) (cs.drop who.length) mode
    match rest with
    | []       => some mode
    | ',' :: r => clauses mask isDir k r mode
    | _        => none

/-- The permissions that a text makes of others. -/
def changed? (text : String) (mask : Nat) (isDir : Bool) (mode : Nat) : Option Nat :=
  let cs := text.toList
  if !cs.isEmpty && cs.all fun c => '0' ≤ c && c ≤ '7' then
    let n := cs.foldl (fun n c => n * 8 + (c.toNat - '0'.toNat)) 0
    if n ≤ 0o7777 then some n else none
  else clauses mask isDir (cs.length + 1) cs mode

/-! ### Messages -/

/-- Permissions in letters. -/
def lettersOf (mode : Nat) : String :=
  let three (n : Nat) (special : Bool) (on off : Char) : List Char :=
    [if n &&& 4 != 0 then 'r' else '-', if n &&& 2 != 0 then 'w' else '-',
     if special then (if n &&& 1 != 0 then on else off) else if n &&& 1 != 0 then 'x' else '-']
  String.ofList (three (mode / 64 % 8) (mode / 2048 % 2 = 1) 's' 'S' ++
    three (mode / 8 % 8) (mode / 1024 % 2 = 1) 's' 'S' ++
    three (mode % 8) (mode / 512 % 2 = 1) 't' 'T')

/-- Permissions in four digits and in letters. -/
def shown (mode : Nat) : String :=
  let ds := Nat.toDigits 8 mode
  String.ofList (List.replicate (4 - ds.length) '0' ++ ds) ++ " (" ++ lettersOf mode ++ ")"

/-! ### The program -/

def options : Utility.Options where
  letters := "Rcfv".toList
  words :=
    [("changes", 'c', false), ("quiet", 'f', false), ("silent", 'f', false),
     ("verbose", 'v', false), ("recursive", 'R', false), ("reference", 'r', true),
     ("preserve-root", 'p', false), ("no-preserve-root", 'p', false), ("help", 'h', false),
     ("version", 'V', false)]

/-- Whether an argument that looks like options is a mode. -/
def isMode (a : String) : Bool :=
  match a.toList with
  | '-' :: c :: _ => "rwxXstugoa,+=01234567".toList.contains c
  | _             => false

/-- Changes one file: what is printed, and what becomes of the files. -/
def changeOne (name mode : String) (mask : Nat) (loud onlyChanges quiet : Bool) (f : String)
    (fs : FileSystem) : List (Bool × String) × Nat × FileSystem :=
  let reported (old new : Nat) : List (Bool × String) :=
    if old ≠ new then
      if loud || onlyChanges then
        [(false, "mode of " ++ Quoting.forShell f ++ " changed from " ++ shown old ++ " to " ++
          shown new ++ "\n")]
      else []
    else if loud then
      [(false, "mode of " ++ Quoting.forShell f ++ " retained as " ++ shown old ++ "\n")]
    else []
  match fs.lookup true (.ofOctets f) with
  | .error why =>
    let text :=
      match why with
      | .os e => e.text
      | e     => e.message
    ((if quiet then [] else
        [(true, name ++ ": cannot access " ++ Quoting.forShell f ++ ": " ++ text ++ "\n")]) ++
      (if loud then [(false, Quoting.forShell f ++ " could not be accessed\n")] else []),
      1, fs)
  | .ok (n :: d, .file g) =>
    let old := modeOf g.executable
    let new := (changed? mode mask false old).getD old
    let files := (fs.put n d (.file ⟨g.content, isStartable new⟩)).toOption.getD fs
    (reported old new, 0, files)
  | .ok (_, .dir)         => (reported 0o755 ((changed? mode mask true 0o755).getD 0o755), 0, fs)
  | .ok _                 => (reported 0o666 ((changed? mode mask false 0o666).getD 0o666), 0, fs)

/-- The paths below a path, itself first. -/
def below (fs : FileSystem) : Nat → String → List String
  | 0, f     => [f]
  | k + 1, f =>
    match fs.lookup false (.ofOctets f) with
    | .ok (l, .dir) =>
      let names := (fs.names l).mergeSort fun a b => decide (a ≤ b)
      f :: names.flatMap fun n => below fs k (f ++ "/" ++ Text.Octets.ofBytes n)
    | _ => [f]

/-- The program. -/
def program : Utility.Program := fun name args =>
  let modes := (args.takeWhile (· ≠ "--")).filter isMode
  let others := (args.takeWhile (· ≠ "--")).filter (!isMode ·) ++ args.dropWhile (· ≠ "--")
  options.withOperands name others fun choices operands => do
    let has (c : Char) : Bool := choices.any (·.1 = c)
    let reference := choices.find? (·.1 = 'r')
    let (mode, files) : Option String × List String :=
      match modes, reference with
      | _ :: _, _   => (some (String.intercalate "," modes), operands)
      | [], some _  => (none, operands)
      | [], none    => (operands.head?, operands.tail)
    if has 'h' || has 'V' then pure 0
    else if files.isEmpty then
      match mode with
      | some m =>
        if modes.isEmpty then Utility.refuse name ("missing operand after " ++ Quoting.curved m)
        else Utility.refuse name "missing operand"
      | none   => Utility.refuse name "missing operand"
    else
      let copied : Option String ← Code.look fun id s =>
        reference.bind fun r => r.2.bind fun f =>
          match (s.filesOf id).lookup true (.ofOctets f) with
          | .ok (_, .file g) => some (if g.executable then "755" else "644")
          | .ok _            => some "755"
          | .error _         => none
      match mode.or copied with
      | none =>
        let f := (reference.bind (·.2)).getD ""
        Utility.complain name
          ("failed to get attributes of " ++ Quoting.forShell f ++ ": No such file or directory")
      | some m =>
        if (changed? m 0 false 0).isNone then
          Utility.refuse name ("invalid mode: " ++ Quoting.curved m)
        else
          let effect ← Code.call fun id s =>
            let mask := (s.process? id).elim 0 (·.mask)
            let fs := s.filesOf id
            let all := if has 'R' then files.flatMap (below fs 64) else files
            let (prints, status, fs) := all.foldl
              (fun (acc : List (Bool × String) × Nat × FileSystem) f =>
                let (prints, status, fs) := changeOne name m mask (has 'v') (has 'c') (has 'f') f
                  acc.2.2
                (acc.1 ++ prints, max acc.2.1 status, fs)) ([], 0, fs)
            ((⟨prints, status⟩ : Effect), { s with files := { fs with cwd := s.files.cwd } })
          Utility.perform name effect

end Assay.Chmod
