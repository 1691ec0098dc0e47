import Assay.Duration
import Assay.Exit
import Assay.Invocation
import Assay.Process.Image

/-!
# Machine — what programs do when they are started

A host knows where programs are looked up, what they are given, and what each one does to the files
until it ends or its time is up.

* `Host.locate`: the program that a command line starts.
* `Host.Confined`: hosts on which programs depend on nothing but their arguments and the files among
  them, and write nothing but the file that they are told to write.
-/

namespace Assay

/-- One program from its start to its end, or for as long as it is left alone. -/
structure Act where
  stdout : Bytes
  stderr : Bytes
  /-- How it ended, if it did in the time that it had, or why nobody could wait for it. -/
  exit : Except Fault (Option Exit)
  /-- The files that it left. -/
  files : FileSystem
  /-- The programs that were started, it and those that it started, in order. -/
  started : List Image

/-- The surroundings of a run that nothing in it changes. -/
structure Host where
  /-- Directories in which bare program names are looked up, in order. -/
  searchPath : List Path
  /-- Where scratch directories go unless the configuration says otherwise. -/
  tempDir : Path
  /-- Names and values that programs are given. -/
  environment : List (Bytes × Bytes)
  /-- What a program does in some time. -/
  act : FileSystem → Image → Duration → Act

namespace Host

/-- Looks a bare name up. Directories that lack it are passed over; one that holds it but does not
let it start is remembered in case no other has it. -/
def search (h : Host) (fs : FileSystem) (i : Invocation) : List Path → Fault → Except Fault Image
  | [], fault      => .error fault
  | d :: ds, fault =>
    match fs.image (d.join i.program) i.program.bytes i.args h.environment with
    | .ok image                      => .ok image
    | .error (.os .notFound)         => h.search fs i ds fault
    | .error (.os .notDirectory)     => h.search fs i ds fault
    | .error (.os .permissionDenied) => h.search fs i ds (.os .permissionDenied)
    | .error e                       => .error e

/-- The program that a command line starts: with a slash in its name it is at that path, any other
name is looked up. -/
def locate (h : Host) (fs : FileSystem) (i : Invocation) : Except Fault Image :=
  if i.program.bytes.contains 0 || i.args.any (·.contains 0) then .error .nulInArgument
  else if i.program.bytes.contains Path.slash then
    fs.image i.program i.program.bytes i.args h.environment
  else if i.program.isEmpty then .error (.os .notFound)
  else h.search fs i h.searchPath (.os .notFound)

end Host

/-! ### Confined programs -/

/-- What a program does that reads nothing but the files among its arguments and writes one file at
most. -/
structure Deed where
  stdout : Bytes
  stderr : Bytes
  exit : Except Fault (Option Exit)
  /-- What it writes where it is told to write, if it writes at all. -/
  output : Option File

namespace Deed

/-- The files after a command line whose program wrote what it wrote. An output that cannot be
written is lost, and so is one for which the command line has no place. -/
def leave (d : Deed) (i : Invocation) (fs : FileSystem) : FileSystem :=
  match (Invocation.operands i.args).output, d.output with
  | some p, some f => (fs.write p f).toOption.getD fs
  | _, _           => fs

/-- The act of the program that a command line starts. -/
def act (d : Deed) (i : Invocation) (image : Image) (fs : FileSystem) : Act :=
  ⟨d.stdout, d.stderr, d.exit, d.leave i fs, [image]⟩

end Deed

namespace Image

/-- The files that a program is given: what its arguments lead to, where that can be read. -/
def given (i : Image) (fs : FileSystem) : List (Option File) :=
  i.args.map fun a => (fs.openFile ⟨a⟩).toOption

/-- All texts that a program is started with. -/
def texts (i : Image) : List Bytes :=
  i.file.content :: i.name :: i.args ++ i.environment.flatMap fun v => [v.1, v.2]

end Image

namespace Host

/-- That programs do nothing but read the files among their arguments and write the one that their
command line tells them to write: what each does follows from how it was started. -/
structure Confined (h : Host) where
  deed : Image → Duration → List (Option File) → Deed
  law : ∀ fs i image limit, h.locate fs i = .ok image →
    h.act fs image limit = (deed image limit (image.given fs)).act i image fs

/-- Whether some bytes are in no output of a program that has not been started with them and was
given no file that holds them. -/
def Confined.NeverGuesses {h : Host} (c : h.Confined) (x : Bytes) : Prop :=
  ∀ image limit given f, (c.deed image limit given).output = some f → x <:+: f.content →
    (∃ t ∈ image.texts, x <:+: t) ∨ ∃ g, some g ∈ given ∧ x <:+: g.content

end Host

end Assay
