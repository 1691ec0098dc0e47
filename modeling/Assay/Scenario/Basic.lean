import Assay.Fixture
import Assay.Machine.Basic
import Assay.Script.Program

/-!
# Scenario — a machine laid out for a run

A scenario lists what stands below a work directory and how the programs there behave. From it come
the files that a run starts on and the host that acts the programs out.
-/

namespace Assay

namespace FileSystem

/-- Makes a directory if that can be done. -/
def withDir (fs : FileSystem) (p : Path) : FileSystem := (fs.makeDirs p).2

/-- Makes the directories above a path. -/
def withParents (fs : FileSystem) (p : Path) : FileSystem :=
  match p.parent? with
  | some q => fs.withDir q
  | none   => fs

/-- Puts a file at a path, in place of any other file there, and the directories above it. -/
def withFile (fs : FileSystem) (p : Path) (f : File) : FileSystem :=
  let fs := fs.withParents p
  match fs.resolve .write p with
  | .ok (.vacant n d)                => (fs.put n d (.file f)).toOption.getD fs
  | .ok (.occupied (n :: d) (.file _)) => (fs.put n d (.file f)).toOption.getD fs
  | _                                => fs

/-- Puts a symbolic link at a path where nothing stands, and the directories above it. -/
def withLink (fs : FileSystem) (p target : Path) : FileSystem :=
  let fs := fs.withParents p
  match fs.resolve .makeDir p with
  | .ok (.vacant n d) => (fs.put n d (.link target)).toOption.getD fs
  | _                 => fs

/-- Puts a device at a path where nothing stands. -/
def withDevice (fs : FileSystem) (p : Path) (d : Device) : FileSystem :=
  match fs.resolve .makeDir p with
  | .ok (.vacant n l) => (fs.put n l (.device d)).toOption.getD fs
  | _                 => fs

/-- Starts relative paths at a directory, if it is one. -/
def within (fs : FileSystem) (p : Path) : FileSystem :=
  match fs.openDir p with
  | .ok d    => { fs with cwd := d }
  | .error _ => fs

end FileSystem

/-- Something to put at a path. -/
inductive Planted where
  | dir
  | file (data : Bytes)
  | link (target : Path)
  deriving DecidableEq, Repr

/-- A fixture whose tools and program are scripted. -/
structure ScriptedFixture where
  path : Path
  source : Option SourceScript
  exitExpected : Option Bytes
  stdoutExpected : Option Bytes
  deriving DecidableEq, Repr

namespace FileSystem

def plant (fs : FileSystem) (p : Path) : Planted → FileSystem
  | .dir         => fs.withDir p
  | .file data   => fs.withFile p ⟨data, false⟩
  | .link target => fs.withLink p target

/-- Writes a file if there is something to write. -/
def withOptional (fs : FileSystem) (p : Path) : Option Bytes → FileSystem
  | some data => fs.withFile p ⟨data, false⟩
  | none      => fs

end FileSystem

structure Scenario where
  /-- The absolute path below which everything stands. -/
  workDir : Path
  /-- Names and values that programs are given. -/
  environment : List (Bytes × Bytes)
  /-- Scripted tools, by path. -/
  tools : List (Path × Stage) := []
  tree : List (Path × Planted) := []
  /-- The settings file in the discovery root. -/
  settings : Option Bytes := none
  fixtures : List ScriptedFixture := []

namespace Scenario

/-- The content of a scripted tool. -/
def toolContent (stage : Stage) : Bytes := Image.native ("tool " ++ stage.name ++ "\n")

/-- The content of the `n`-th scripted source or program. -/
def scriptContent (n : Nat) : Bytes := Image.native ("script " ++ toString n ++ "\n")

/-- Where utilities are. -/
def toolbox : Path := .ofString "/toolbox"

/-- Where utilities are found by their full names, and a shorter path to there. -/
def binaries : Path := .ofString "/usr/bin"

def shortBinaries : Path := .ofString "/bin"

/-- Directories and files that every machine has. -/
def standardDirs : List String := ["/etc", "/home", "/opt", "/root", "/tmp", "/usr/lib", "/var"]

def standardFiles : List (String × String) :=
  [("/etc/passwd", "root:x:0:0:root:/root:/bin/sh\n"), ("/etc/hosts", "127.0.0.1 localhost\n")]

/-- The files of the shell and the utilities, by name. -/
def standardPrograms : List (String × Bytes) :=
  ("sh", Program.shellContent) :: Utility.programs.map fun p => (p.1, Utility.content p.1)

/-- The files of the devices, by name. -/
def devices : List (String × Device) := [("null", .null), ("zero", .zero), ("full", .full)]

/-- A machine with nothing but its utilities and devices. -/
def bareFiles : FileSystem :=
  let plantIn (d : Path) (fs : FileSystem) : FileSystem :=
    standardPrograms.foldl (fun fs p => fs.withFile (d.child p.1) ⟨p.2, true⟩) fs
  let fs := plantIn binaries (plantIn toolbox FileSystem.empty)
  let fs := fs.withLink shortBinaries (.ofString "usr/bin")
  let fs := standardDirs.foldl (fun fs d => fs.withDir (.ofString d)) fs
  let fs := standardFiles.foldl (fun fs f =>
    fs.withFile (.ofString f.1) ⟨Text.Utf8.encode f.2, false⟩) fs
  let devs := Path.ofString "/dev"
  devices.foldl (fun fs d => fs.withDevice (devs.child d.1) d.2) (fs.withDir devs)

/-- The names and values that programs are given in any case. -/
def standardEnvironment (workDir : Path) : List (Bytes × Bytes) :=
  let name (s : String) : Bytes := Text.Utf8.encode s
  [(name "PATH", (workDir.child "bin").bytes ++ name ":" ++ toolbox.bytes),
   (name "TMPDIR", (workDir.child "tmp").bytes), (name "HOME", name "/root")]

/-- The directory of the fixtures. -/
def fixtureRoot (s : Scenario) : Path := s.workDir.child "v"

/-- The files of a scripted fixture; `content` stands for its scripts. -/
def plantFixture (root : Path) (fs : FileSystem) (f : ScriptedFixture) (content : Bytes) :
    FileSystem :=
  let fixture : Fixture := ⟨root.join f.path⟩
  let fs := fs.withDir fixture.directory
  let fs := fs.withOptional fixture.source (f.source.map fun _ => content)
  let fs := fs.withOptional fixture.exitFile f.exitExpected
  fs.withOptional fixture.stdoutFile f.stdoutExpected

/-- All files of a scenario. -/
def files (s : Scenario) : FileSystem :=
  let fs := (bareFiles.withDir s.workDir).within s.workDir
  let fs := s.tools.foldl (fun fs t => fs.withFile t.1 ⟨toolContent t.2, true⟩) fs
  let fs := s.tree.foldl (fun fs t => fs.plant t.1 t.2) fs
  let fs := fs.withOptional (s.fixtureRoot.child "harness.toml") s.settings
  s.fixtures.zipIdx.foldl (fun fs f => plantFixture s.fixtureRoot fs f.1 (scriptContent f.2)) fs

/-- What the contents of a scenario's files stand for. -/
def programs (s : Scenario) : List (Bytes × Program) :=
  [Stage.translate, .codegen, .link].map (fun t => (toolContent t, .tool t)) ++
    s.fixtures.zipIdx.map fun f => (scriptContent f.2, .source (f.1.source.getD {}))

/-- The value that programs are given under a name. -/
def given? (s : Scenario) (name : String) : Option Bytes :=
  s.environment.lookup (Text.Utf8.encode name)

/-- The directories that programs are looked up in. -/
def searchPath (s : Scenario) : List Path :=
  match s.given? "PATH" with
  | some text => (text.splitOn 0x3A).map Path.mk
  | none      => [shortBinaries, binaries]

/-- Where scratch directories go by default. -/
def tempDir (s : Scenario) : Path := ((s.given? "TMPDIR").map Path.mk).getD (.ofString "/tmp")

/-- A host that acts out given programs besides the utilities. -/
def hostWith (s : Scenario) (programs : List (Bytes × Program)) : Host where
  searchPath := s.searchPath
  tempDir := s.tempDir
  environment := s.environment
  act := Program.act programs

def host (s : Scenario) : Host := s.hostWith s.programs

def machine (s : Scenario) : Machine := { files := s.files }

/-- The calls of scripted tools among the programs started: the stage, then the arguments. -/
def toolCalls (m : Machine) : List Bytes :=
  m.started.filterMap fun i =>
    ([Stage.translate, .codegen, .link].find? fun t => toolContent t == i.file.content).map
      fun t => [0x20].intercalate (Text.Utf8.encode t.name :: i.args)

end Scenario

end Assay
