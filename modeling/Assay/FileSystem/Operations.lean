import Assay.FileSystem.Resolve

/-!
# FileSystem — what programs ask of it

Tests, reading, writing, making directories and removing trees, each by path. Only making several
directories at once can fail and still have changed the tree.
-/

namespace Assay.FileSystem

/-! ### Tests -/

def exists? (fs : FileSystem) (p : Path) : Bool := (fs.lookup true p).isOk

def isDir (fs : FileSystem) (p : Path) : Bool :=
  match fs.lookup true p with
  | .ok (_, .dir) => true
  | _             => false

def isFile (fs : FileSystem) (p : Path) : Bool :=
  match fs.lookup true p with
  | .ok (_, .file _) => true
  | _                => false

/-! ### Reading -/

/-- The file at a path. A device is read as an empty one. -/
def openFile (fs : FileSystem) (p : Path) : Except Fault File := do
  match ← fs.lookup true p with
  | (_, .file f)   => pure f
  | (_, .device _) => pure ⟨[], false⟩
  | (_, .dir)      => throw (.os .isDirectory)
  | (_, .link _)   => throw (.os .tooManyLinks)

/-- The bytes of the file at a path. -/
def read (fs : FileSystem) (p : Path) : Except Fault Bytes :=
  (·.content) <$> fs.openFile p

/-- The directory at a path. -/
def openDir (fs : FileSystem) (p : Path) : Except Fault Loc := do
  match ← fs.lookup true p with
  | (l, .dir) => pure l
  | _         => throw (.os .notDirectory)

/-- The path of the working directory. One that has been removed has none. -/
def currentDir (fs : FileSystem) : Except Fault Path :=
  if fs.isDirAt fs.cwd then .ok fs.cwd.path else .error (.os .notFound)

/-! ### Writing -/

/-- Puts a file or a link at a place that holds no directory. -/
def put (fs : FileSystem) (n : Bytes) (d : Loc) (e : Entry) : Except Fault FileSystem :=
  if name : IsName n then
    if hd : fs.get? d = some .dir then
      if hn : fs.get? (n :: d) = some .dir then .error (.os .isDirectory)
      else .ok (fs.insert n d e name hd hn)
    else .error (.os .notDirectory)
  else .error (.os .invalid)

/-- Writes a file: a new one, or new bytes into one that exists, which stays startable if it was. -/
def write (fs : FileSystem) (p : Path) (f : File) : Except Fault FileSystem := do
  match ← fs.resolve .write p with
  | .vacant n d                  => fs.put n d (.file f)
  | .occupied (n :: d) (.file g) => fs.put n d (.file ⟨f.content, f.executable || g.executable⟩)
  | .occupied _ (.device d)      =>
    if d = .full ∧ f.content ≠ [] then throw (.os .noSpace) else pure fs
  | .occupied _ _                => throw (.os .isDirectory)

/-- Makes one directory where nothing stands. -/
def makeDir (fs : FileSystem) (p : Path) : Except Fault FileSystem := do
  match ← fs.resolve .makeDir p with
  | .occupied _ _ => throw (.os .exists)
  | .vacant n d   => fs.put n d .dir

/-- Makes a directory and those above it that are missing; those that were made stay when a later
one fails. `k` bounds how far up is looked: a path has no more parents than components. -/
def makeDirsUpTo : Nat → FileSystem → Path → Except Fault Unit × FileSystem
  | 0, fs, _     => (.ok (), fs)
  | k + 1, fs, p =>
    if p.isEmpty then (.ok (), fs)
    else
      match fs.makeDir p with
      | .ok fs' => (.ok (), fs')
      | .error (.os .notFound) =>
        match p.parent? with
        | none   => (.error (.other "failed to create whole tree"), fs)
        | some q =>
          match makeDirsUpTo k fs q with
          | (.error e, fs') => (.error e, fs')
          | (.ok (), fs')   =>
            match fs'.makeDir p with
            | .ok fs'' => (.ok (), fs'')
            | .error e => (if fs'.isDir p then .ok () else .error e, fs')
      | .error e => (if fs.isDir p then .ok () else .error e, fs)

def makeDirs (fs : FileSystem) (p : Path) : Except Fault Unit × FileSystem :=
  makeDirsUpTo (p.components.length + 1) fs p

/-- Removes a directory with all it holds, or a symbolic link itself. -/
def removeTree (fs : FileSystem) (p : Path) : Except Fault FileSystem := do
  match ← fs.lookup false p with
  | (n :: d, .dir)    => pure (fs.erase n d)
  | (n :: d, .link _) => pure (fs.erase n d)
  | _                 => throw (.os .notDirectory)

end Assay.FileSystem
