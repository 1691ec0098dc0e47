import Assay.Shell.Expansion

/-!
# Shell — redirections

Where the descriptors of a command lead. The words of all redirections become texts before the first
of them is carried out. A descriptor that is redirected for one command only is kept under a higher
number meanwhile.

* `Redirection.prepare`, `Redirection.carryOut`, `Redirection.restore`.
-/

namespace Assay

namespace Code

/-- Makes a descriptor lead where another one does; false if that one leads nowhere. -/
def duplicate (source target : Nat) : Code Bool :=
  call fun id s =>
    match s.held? id source with
    | some h => (true, s.hold id target { h with isPrivate := false })
    | none   => (false, s)

/-- Moves what a descriptor refers to to the lowest free number from ten on, for this program only; none
if it refers to nothing. -/
def putAside (fd : Nat) : Code (Option Nat) :=
  call fun id s =>
    match s.held? id fd with
    | none   => (none, s)
    | some h =>
      let n := s.lowest id 10
      (some n, (s.hold id n { h with isPrivate := true }).close id fd)

/-- A pipe with a text in it that nobody can add to; the descriptor to read it from. -/
def pipeOf (text : Bytes) : Code Nat :=
  call fun id s =>
    let ((outlet, _), s) := s.addPipe
    let s :=
      match s.openings.lookup outlet with
      | some ⟨.outlet k, _, _, _, _⟩ =>
        s.setPipe k ⟨if text.isEmpty then [] else [text], text.length⟩
      | _ => s
    let fd := s.lowest id 0
    (fd, s.hold id fd ⟨outlet, false⟩)

/-- A new pipe: the descriptors to read from and to write to. -/
def pipe : Code (Nat × Nat) :=
  call fun id s =>
    let ((outlet, inlet), s) := s.addPipe
    let source := s.lowest id 0
    let s := s.hold id source ⟨outlet, false⟩
    let target := s.lowest id 0
    ((source, target), s.hold id target ⟨inlet, false⟩)

end Code

namespace Shell.Redirection

/-- Where a descriptor is to lead. -/
inductive Goal where
  | path (p : String) (d : Direction)
  /-- To where another one leads, or nowhere. -/
  | same (fd : Option Nat)
  | text (w : Word)

/-- A redirection whose words are texts. -/
structure Ready where
  fd : Nat
  goal : Goal

/-- The descriptor that a word stands for, none for a hyphen. -/
def descriptorOf (t : String) : Sh (Option Nat) :=
  match t.toList with
  | ['-'] => pure none
  | [c]   => if c.isDigit then pure (some (c.toNat - '0'.toNat)) else refuse
  | _     => refuse
where
  refuse : Sh (Option Nat) := do
    modify fun s => { s with line := s.readLine }
    Sh.fail "Syntax error: Bad fd number"

/-- Gets some redirections ready. -/
def prepare (listen : Expansion.Listener) (rs : List Redirect) : Sh (List Ready) :=
  rs.mapM fun
    | .toWord fd (.same _) w => do
      pure ⟨fd, .same (← descriptorOf (← Expansion.text listen {} w))⟩
    | .toWord fd d w         => do pure ⟨fd, .path (← Expansion.text listen {} w) d⟩
    | .fromText fd id        => do
      let s ← get
      pure ⟨fd, .text ((s.texts.lookup id).getD [])⟩

/-- What a shell says of a fault; `missing` stands for what is not there. -/
def shown (missing : String) : Fault → String
  | .os .notFound | .os .notDirectory => missing
  | .os e                             => e.text
  | why                               => why.message

/-- Why a file cannot be opened to write. -/
def cannotCreate {α : Type} (p : String) (why : Fault) : Sh α :=
  Sh.fail ("cannot create " ++ p ++ ": " ++ shown "Directory nonexistent" why)

def cannotOpen {α : Type} (p : String) (why : Fault) : Sh α :=
  Sh.fail ("cannot open " ++ p ++ ": " ++ shown "No such file" why)

/-- Opens a path to read. -/
def openSource (p : String) : Sh Nat := do
  match ← Sh.code (Code.openPath (.ofOctets p) .read) with
  | .ok fd     => pure fd
  | .error why => cannotOpen p why

def openTarget (p : String) (purpose : Purpose) : Sh Nat := do
  match ← Sh.code (Code.openPath (.ofOctets p) purpose) with
  | .ok fd     => pure fd
  | .error why => cannotCreate p why

/-- Opens what a descriptor is to lead to; an outer none if it leads there already. -/
def openGoal (listen : Expansion.Listener) (r : Ready) : Sh (Option (Option Nat)) := do
  match r.goal with
  | .same (some fd)         => pure (if fd = r.fd then none else some (some fd))
  | .same none              => pure (some none)
  | .text w                 => do
    let text ← Expansion.text listen { tilde := false } w
    let fd ← Sh.code (Code.pipeOf (Text.Octets.toBytes text))
    pure (some (some fd))
  | .path p .source         => do pure (some (some (← openSource p)))
  | .path p .update         => do pure (some (some (← openTarget p .update)))
  | .path p .append         => do pure (some (some (← openTarget p .append)))
  | .path p (.target force) => do
    let s ← get
    if s.has 'C' && !force then do
      let entry ← Sh.code (Code.look fun id sys => (sys.filesOf id).lookup true (.ofOctets p))
      match entry with
      | .ok (_, .file _) => cannotCreate p (.os .exists)
      | .ok _            => do
        match ← Sh.code (Code.openPath (.ofOctets p) .write) with
        | .ok fd     => pure (some (some fd))
        | .error why => cannotOpen p why
      | .error _         => do pure (some (some (← openTarget p .write)))
    else do pure (some (some (← openTarget p .write)))
  | .path p (.same _)       => do pure (some (some (← openSource p)))

/-- The descriptors that have been put aside: their numbers, and where they are if they led anywhere. -/
abbrev Aside := List (Nat × Option Nat)

/-- Carries out one redirection; `saves` says whether it can be taken back. -/
def carryOutOne (listen : Expansion.Listener) (saves : Bool) (aside : Aside) (r : Ready) :
    Sh Aside := do
  match ← openGoal listen r with
  | none      => pure aside
  | some goal => do
    let aside ←
      if saves && (aside.lookup r.fd).isNone then
        if goal = some r.fd then pure ((r.fd, none) :: aside)
        else do pure ((r.fd, ← Sh.code (Code.putAside r.fd)) :: aside)
      else pure aside
    modify fun s => { s with aside := aside }
    match goal with
    | none    => Sh.code (Code.close r.fd)
    | some fd =>
      if fd = r.fd then pure ()
      else
        let isCopy :=
          match r.goal with
          | .same _ => true
          | _       => false
        if !(← Sh.code (Code.duplicate fd r.fd)) then
          Sh.fail (toString fd ++ ": " ++ Errno.badDescriptor.text)
        if !isCopy then Sh.code (Code.close fd)
    pure aside

/-- Carries out redirections one after the other. What has been put aside stands in the state, also if
one of them fails. -/
def carryOut (listen : Expansion.Listener) (saves : Bool) (rs : List Ready) : Sh Unit := do
  modify fun s => { s with aside := [] }
  let _ ← rs.foldlM (carryOutOne listen saves) []

/-- Puts back what was put aside. -/
def restore (aside : Aside) : Sh Unit :=
  aside.forM fun
    | (fd, none)   => Sh.code (Code.close fd)
    | (fd, some n) => do
      let _ ← Sh.code (Code.duplicate n fd)
      Sh.code (Code.close n)

/-- Forgets what was put aside. -/
def forget (aside : Aside) : Sh Unit :=
  aside.forM fun
    | (_, none)   => pure ()
    | (_, some n) => Sh.code (Code.close n)

end Shell.Redirection

end Assay
