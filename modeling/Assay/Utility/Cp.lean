import Assay.Utility.Quoting

/-!
# Utility — cp

Copies files, and directories if it is told so. A copy may be started if what it was made from may
be; a file that was there before stays as it was in that respect.
-/

namespace Assay.Cp

def options : Utility.Options where
  letters := "abdfHilLnprsuvxPRTZ".toList
  greedy := ['t', 'S']
  words :=
    [("archive", 'a', false), ("backup", 'b', false), ("force", 'f', false),
     ("interactive", 'i', false), ("link", 'l', false), ("dereference", 'L', false),
     ("no-clobber", 'n', false), ("no-dereference", 'P', false), ("preserve", 'p', false),
     ("recursive", 'r', false), ("symbolic-link", 's', false), ("suffix", 'S', true),
     ("target-directory", 't', true), ("no-target-directory", 'T', false), ("update", 'u', false),
     ("verbose", 'v', false), ("one-file-system", 'x', false), ("help", 'h', false),
     ("version", 'V', false)]

/-- How files are copied. -/
structure Manner where
  recursive : Bool
  /-- Whether symbolic links are copied themselves. -/
  keepsLinks : Bool
  keepsMode : Bool
  keepsOld : Bool
  asks : Bool
  linking : Bool
  loud : Bool
  mask : Nat
  deriving DecidableEq, Repr

def Manner.ofChoices (cs : List Utility.Choice) (mask : Nat) : Manner :=
  let has (letters : String) : Bool := cs.any fun c => letters.toList.contains c.1
  let lastLink := (cs.filter fun c => "LPdHa".toList.contains c.1).getLast?
  { recursive := has "raR"
    keepsLinks := match lastLink with
      | some (c, _) => "Pda".toList.contains c
      | none        => has "rR"
    keepsMode := has "pa"
    keepsOld := has "n"
    asks := has "i" && !has "n"
    linking := has "s"
    loud := has "v"
    mask := mask }

/-- Copying under way. -/
structure State where
  fs : FileSystem
  prints : List (Bool × String) := []
  status : Nat := 0

namespace State

variable (name : String)

def say (s : State) (why : String) : State :=
  { s with prints := s.prints ++ [(true, name ++ ": " ++ why ++ "\n")], status := 1 }

def tell (s : State) (m : Manner) (source target : String) : State :=
  if m.loud then
    { s with prints := s.prints ++
        [(false, Quoting.forShell source ++ " -> " ++ Quoting.forShell target ++ "\n")] }
  else s

/-- The text of a cause without its number. -/
def textOf : Fault → String
  | .os e => e.text
  | e     => e.message

/-- Writes the copy of a file. -/
def putFile (s : State) (m : Manner) (f : File) (target : String) : State :=
  let fresh := f.executable && (m.mask &&& 0o111) != 0o111
  let failed (why : Fault) : State :=
    let why :=
      if why = .os .isDirectory ∧ target.endsWith "/" then .os .notDirectory else why
    s.say name ("cannot create regular file " ++ Quoting.forShell target ++ ": " ++ textOf why)
  match s.fs.resolve .write (.ofOctets target) with
  | .error why                        => failed why
  | .ok (.vacant n d)                 =>
    match s.fs.put n d (.file ⟨f.content, fresh⟩) with
    | .ok fs     => { s with fs := fs }
    | .error why => failed why
  | .ok (.occupied (n :: d) (.file g)) =>
    let executable := if m.keepsMode then f.executable else g.executable
    match s.fs.put n d (.file ⟨f.content, executable⟩) with
    | .ok fs     => { s with fs := fs }
    | .error why => failed why
  | .ok (.occupied _ (.device .full)) =>
    if f.content.isEmpty then s
    else s.say name ("error writing " ++ Quoting.forShell target ++ ": No space left on device")
  | .ok (.occupied _ (.device _))     => s
  | .ok (.occupied _ _)               => failed (.os .isDirectory)

/-- Makes a symbolic link. -/
def putLink (s : State) (goal : Path) (target : String) : State :=
  match s.fs.resolve .makeDir (.ofOctets target) with
  | .ok (.vacant n d) =>
    match s.fs.put n d (.link goal) with
    | .ok fs     => { s with fs := fs }
    | .error why =>
      s.say name ("cannot create symbolic link " ++ Quoting.forShell target ++ ": " ++ textOf why)
  | .ok _             =>
    s.say name ("cannot create symbolic link " ++ Quoting.forShell target ++ ": File exists")
  | .error why        =>
    s.say name ("cannot create symbolic link " ++ Quoting.forShell target ++ ": " ++ textOf why)

/-- Takes away what a symbolic link is to replace. -/
def clear (s : State) (m : Manner) (target : String) : State :=
  match s.fs.lookup false (.ofOctets target) with
  | .ok (n :: d, _) =>
    let prints := if m.loud then [(false, "removed " ++ Quoting.forShell target ++ "\n")] else []
    { s with fs := s.fs.erase n d, prints := s.prints ++ prints }
  | _ => s

/-- Copies whatever stands at a path, `k` levels of directories at most. A symbolic link takes the
place of the target itself, other entries that of what the target leads to. -/
def copy (m : Manner) : Nat → State → String → String → State
  | 0, s, _, _                => s
  | k + 1, s, source, target =>
    let at? (follow : Bool) (p : String) : Except Fault (Loc × Entry) :=
      s.fs.lookup follow (.ofOctets p)
    let cannot (what : String) (why : Fault) : State :=
      s.say name ("cannot stat " ++ Quoting.forShell what ++ ": " ++ textOf why)
    match at? (!m.keepsLinks) source, at? true target, at? false target with
    | .error why, _, _                     => cannot source why
    | .ok (here, e), there, thereItself    =>
      let isDir := e == .dir
      let there := match e with
        | .link _ => thereItself
        | _       => there
      if isDir && !m.recursive then
        s.say name ("-r not specified; omitting directory " ++ Quoting.forShell source)
      else
        match there, thereItself with
        | .ok (l, old), _ =>
          if l = here ∧ !isDir then
            if m.keepsOld then s
            else
              s.say name (Quoting.forShell source ++ " and " ++ Quoting.forShell target ++
                " are the same file")
          else if isDir && old != .dir then
            s.say name ("cannot overwrite non-directory " ++ Quoting.forShell target ++
              " with directory " ++ Quoting.forShell source)
          else if !isDir && old == .dir then
            s.say name ("cannot overwrite directory " ++ Quoting.forShell target ++
              " with non-directory")
          else if !isDir && m.keepsOld then s
          else if !isDir && m.asks then
            { s with
              prints := s.prints ++ [(true, name ++ ": overwrite " ++ Quoting.forShell target ++ "? ")]
              status := 1 }
          else into k s here e source target true
        | .error (.os .notFound), .ok (_, .link _) =>
          match e with
          | .dir    =>
            s.say name ("cannot overwrite non-directory " ++ Quoting.forShell target ++
              " with directory " ++ Quoting.forShell source)
          | _       => s.say name ("not writing through dangling symlink " ++ Quoting.forShell target)
        | .error (.os .notFound), _ => into k s here e source target false
        | .error why, _             => cannot target why
where
  /-- Copies an entry to a target, given whether something is there. -/
  into (k : Nat) (s : State) (here : Loc) (e : Entry) (source target : String)
      (exists? : Bool) : State :=
    match e with
    | .file f   =>
      if m.linking then (s.tell m source target).putLink name (.ofOctets source) target
      else (s.tell m source target).putFile name m f target
    | .device _ => (s.tell m source target).putFile name m ⟨[], false⟩ target
    | .link t   =>
      let s := if exists? then s.clear m target else s
      (s.tell m source target).putLink name t target
    | .dir      =>
      let inside :=
        match s.fs.resolve .makeDir (.ofOctets target) with
        | .ok (.vacant n d)     => here.isSuffixOf (n :: d)
        | .ok (.occupied l _)   => here.isSuffixOf l && l != here
        | .error _              => false
      if inside then
        s.say name ("cannot copy a directory, " ++ Quoting.forShell source ++ ", into itself, " ++
          Quoting.forShell target)
      else
        let made : Except Fault State :=
          if exists? then .ok s
          else (s.fs.makeDir (.ofOctets target)).map fun fs => ({ s with fs := fs }).tell m source target
        match made with
        | .error why =>
          s.say name ("cannot create directory " ++ Quoting.forShell target ++ ": " ++ textOf why)
        | .ok s      =>
          let names := (s.fs.names here).mergeSort fun a b => decide (a ≤ b)
          names.foldl (fun s n =>
            let n := Text.Octets.ofBytes n
            copy m k s (source ++ "/" ++ n) (target ++ "/" ++ n)) s

end State

/-- The last part of a path, without the slashes behind it. -/
def lastPart (p : String) : String :=
  let cs := p.toList.reverse.dropWhile (· = '/')
  String.ofList (cs.takeWhile (· ≠ '/')).reverse

/-- The path of an entry in a directory. -/
def within (dir source : String) : String :=
  let part := lastPart source
  if part = ".." ∨ part = "" then dir
  else if dir.endsWith "/" then dir ++ part
  else dir ++ "/" ++ part

/-- Copies all sources, to a directory or to a single target. -/
def copyAll (name : String) (m : Manner) (cs : List Utility.Choice) (operands : List String)
    (fs : FileSystem) : Except (Bool × String) State :=
  let has (c : Char) : Bool := cs.any (·.1 = c)
  let dir? := (cs.find? (·.1 = 't')).bind (·.2)
  let levels := 64
  let toDir (sources : List String) (dir : String) : State :=
    sources.foldl (fun s f => s.copy name m levels f (within dir f)) { fs }
  let reason (p : String) : String :=
    match fs.lookup true (.ofOctets p) with
    | .error why => State.textOf why
    | .ok _      => "Not a directory"
  match dir?, operands with
  | _, []                   => .error (true, "missing file operand")
  | some dir, sources       =>
    if fs.isDir (.ofOctets dir) then .ok (toDir sources dir)
    else .error (false, "target directory " ++ Quoting.forShell dir ++ ": " ++ reason dir)
  | none, [a]               =>
    .error (true, "missing destination file operand after " ++ Quoting.forShell a)
  | none, operands          =>
    let sources := operands.dropLast
    let target := operands.getLastD ""
    if has 'T' then
      match operands with
      | [a, b]     => .ok (({ fs } : State).copy name m levels a b)
      | operands   => .error (true, "extra operand " ++ Quoting.forShell (operands.getD 2 ""))
    else if fs.isDir (.ofOctets target) then .ok (toDir sources target)
    else
      match sources with
      | [a] => .ok (({ fs } : State).copy name m levels a target)
      | _   => .error (false, "target " ++ Quoting.forShell target ++ ": " ++ reason target)

/-- The program. -/
def program : Utility.Program := fun name args =>
  options.withOperands name args fun choices operands => do
    if choices.any fun c => c.1 = 'h' || c.1 = 'V' then pure 0
    else
      let outcome : Except (Bool × String) Effect ← Code.call fun id s =>
        let mask := (s.process? id).elim 0 (·.mask)
        match copyAll name (.ofChoices choices mask) choices operands (s.filesOf id) with
        | .error why => (.error why, s)
        | .ok c      =>
          (.ok (⟨c.prints, c.status⟩ : Effect), { s with files := { c.fs with cwd := s.files.cwd } })
      match outcome with
      | .error (true, why)  => Utility.refuse name why
      | .error (false, why) => Utility.complain name why
      | .ok e               => Utility.perform name e

end Assay.Cp
