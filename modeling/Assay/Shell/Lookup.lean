import Assay.Shell.Redirection

/-!
# Shell — what the name of a command stands for

A name with a slash in it is a path. Any other is a function, a part of the shell or, if it is
neither, looked up in the directories of `PATH`; where it was found is remembered.

* `Lookup.find`: what a name stands for.
* `Lookup.execute`: becoming another program.
-/

namespace Assay.Shell

/-- What the name of a command stands for. -/
inductive Meaning where
  | function (f : Function)
  | builtin
  | program (path : String)
  | unknown

namespace Lookup

/-- The commands that are parts of the shell. -/
def builtins : List String :=
  specialNames ++
    ["[", "alias", "bg", "cd", "chdir", "command", "echo", "false", "fg", "getopts", "hash", "jobs",
     "kill", "printf", "pwd", "read", "test", "true", "type", "ulimit", "umask", "unalias", "wait"]

def isBuiltin (name : String) : Bool := builtins.contains name

def isSpecial (name : String) : Bool := specialNames.contains name

/-- Directories that a shell searches unless it is told of others. -/
def standardPath : String := "/usr/local/sbin:/usr/local/bin:/usr/sbin:/usr/bin:/sbin:/bin"

def pathOf (s : State) : String := (s.value? "PATH").getD ""

/-- The paths that a name may have below some directories. -/
def candidates (path name : String) : List String :=
  (path.splitOn ":").map fun d => if d.isEmpty then name else d ++ "/" ++ name

/-- The first path at which a file stands that may be started, or why there is none. -/
def search (fs : FileSystem) : Errno → List String → Except Errno String
  | why, []     => .error why
  | why, p :: r =>
    match fs.lookup true (.ofOctets p) with
    | .ok (_, .file f)           => if f.executable then .ok p else search fs .permissionDenied r
    | .ok _                      => search fs .permissionDenied r
    | .error (.os .notFound)     => search fs why r
    | .error (.os .notDirectory) => search fs why r
    | .error (.os e)             => search fs e r
    | .error _                   => search fs why r

/-- Looks a name up in the directories of a path. -/
def searchFor (path name : String) : Sh (Except Errno String) :=
  Sh.code (Code.look fun id sys => search (sys.filesOf id) .notFound (candidates path name))

/-- What is said of a command that cannot be started. -/
def shown (why : Errno) : String := Redirection.shown "not found" (.os why)

/-- What a name stands for; `path` are directories to search instead of the usual ones. Functions may be
left out, and a message is printed if that is wanted. -/
def find (name : String) (functions loud : Bool) (path : Option String) : Sh Meaning := do
  let s ← get
  if name.toList.contains '/' then pure (.program name)
  else
    match (if functions then s.functions.lookup name else none) with
    | some f => pure (.function f)
    | none   =>
      if isBuiltin name then pure .builtin
      else
        match (if path.isNone then s.found.lookup name else none) with
        | some p => pure (.program p)
        | none   =>
          match ← searchFor (path.getD (pathOf s)) name with
          | .ok p      => do
            if path.isNone then modify fun s => { s with found := (name, p) :: s.found }
            pure (.program p)
          | .error why => do
            if loud then Sh.warn (name ++ ": " ++ shown why)
            pure .unknown

/-! ### Becoming a program -/

/-- The shell that reads files which are no programs. -/
def standardShell : String := "/bin/sh"

/-- The program that starting a path with some arguments comes to; a file of no known kind is read by a
shell. -/
def imageOf (fs : FileSystem) (p name : String) (args : List String)
    (environment : List (Bytes × Bytes)) : Except Fault Image :=
  let args := args.map Text.Octets.toBytes
  match fs.image (.ofOctets p) (Text.Octets.toBytes name) args environment with
  | .error (.os .badFormat) =>
    fs.image (.ofOctets standardShell) (Text.Octets.toBytes standardShell)
      (Text.Octets.toBytes p :: args) environment
  | r => r

/-- The first of some paths that can be started, or why none of them can. -/
def firstImage (fs : FileSystem) (name : String) (args : List String)
    (environment : List (Bytes × Bytes)) : Errno → List String → Except Errno Image
  | why, []     => .error why
  | why, p :: r =>
    match imageOf fs p name args environment with
    | .ok i                      => .ok i
    | .error (.os .notFound)     => firstImage fs name args environment why r
    | .error (.os .notDirectory) => firstImage fs name args environment why r
    | .error (.os e)             => firstImage fs name args environment e r
    | .error _                   => firstImage fs name args environment why r

/-- Becomes another program, or ends the shell with a message. -/
def execute {α : Type} (name : String) (args : List String) (path : Option String) : Sh α := do
  let s ← get
  let paths :=
    if name.toList.contains '/' then [name] else candidates (path.getD (pathOf s)) name
  match ← Sh.code (Code.look fun id sys =>
      firstImage (sys.filesOf id) name args s.environment .notFound paths) with
  | .ok i      => Sh.code fun _ => .become i
  | .error why => do
    Sh.warn (name ++ ": " ++ shown why)
    let lacks := [Errno.notFound, .notDirectory, .tooManyLinks, .nameTooLong].contains why
    modify fun s => { s with status := if lacks then 127 else 126 }
    Sh.halt .ended

end Lookup

end Assay.Shell
