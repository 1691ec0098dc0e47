import Assay.Fault
import Assay.FileSystem.Basic

/-!
# FileSystem — where a path leads

A path is followed step by step from the top or from the working directory. Each step but the last
must stand in a directory; symbolic links on the way are replaced by what they name, at most forty
of them. A path that ends in a slash asks for a directory: it takes one more step to see that it
reached one.
-/

namespace Assay

/-- One step along a path. -/
inductive Step where
  | stay
  | up
  | enter (n : Bytes)
  /-- The slash at the end. -/
  | slash
  deriving DecidableEq, Repr

namespace Path

/-- The step that a segment stands for; nothing stands between two slashes. -/
def step? (s : Bytes) : Option Step :=
  if s = [] then none
  else if s = [dot] then some .stay
  else if s = [dot, dot] then some .up
  else some (.enter s)

/-- The steps of a path. -/
def steps (p : Path) : List Step :=
  p.segments.filterMap step? ++ if p.bytes.getLast? == some slash then [.slash] else []

end Path

/-- The path that leads from the top straight to a location. -/
def Loc.path (l : Loc) : Path := ⟨Path.slash :: [Path.slash].intercalate l.reverse⟩

namespace FileSystem

/-- What a path is followed for. -/
inductive Aim where
  /-- To find what stands there; a symbolic link at the end is replaced too, or is itself found. -/
  | find (follow : Bool)
  /-- To write a file there, through a symbolic link at the end. -/
  | write
  /-- To make a directory there, for which a slash at the end changes nothing. -/
  | makeDir
  deriving DecidableEq, Repr

/-- Whether a symbolic link at the end is replaced. -/
def Aim.follows : Aim → Bool
  | .find follow => follow
  | .write       => true
  | .makeDir     => false

/-- Whether a step with some steps behind it is the last that counts. -/
def Aim.endsBefore (aim : Aim) (r : List Step) : Bool :=
  r.isEmpty || (aim == .makeDir && r == [.slash])

/-- Where a path leads: to an entry, or to a free name in a directory that exists. -/
inductive Target where
  | occupied (l : Loc) (e : Entry)
  | vacant (n : Bytes) (d : Loc)
  deriving DecidableEq, Repr

/-- The longest path, in bytes, that may be asked for. -/
def pathLimit : Nat := 4095

/-- Symbolic links that may be replaced on one way. -/
def linkLimit : Nat := 40

/-- Takes the steps from a location. A symbolic link on the way goes to `onLink` with the location
to go on from and all steps that then remain. -/
def walkWith (fs : FileSystem) (aim : Aim) (onLink : Loc → List Step → Except Errno Target) :
    Loc → List Step → Except Errno Target
  | l, [] =>
    match fs.get? l with
    | some e => .ok (.occupied l e)
    | none   => .error .notFound
  | l, .stay :: r =>
    if fs.isDirAt l then fs.walkWith aim onLink l r else .error .notDirectory
  | l, .slash :: r =>
    if fs.isDirAt l then fs.walkWith aim onLink l r else .error .notDirectory
  | l, .up :: r =>
    if fs.isDirAt l then fs.walkWith aim onLink l.tail r else .error .notDirectory
  | l, .enter n :: r =>
    if !fs.isDirAt l then .error .notDirectory
    else if aim = .write ∧ r = [.slash] then .error .isDirectory
    else if nameLimit < n.length then .error .nameTooLong
    else
      match fs.get? (n :: l) with
      | none => if aim.endsBefore r then .ok (.vacant n l) else .error .notFound
      | some (.link t) =>
        if aim.endsBefore r && !aim.follows then .ok (.occupied (n :: l) (.link t))
        else onLink (if t.isAbsolute then [] else l) (t.steps ++ r)
      | some e =>
        if aim.endsBefore r then .ok (.occupied (n :: l) e) else fs.walkWith aim onLink (n :: l) r

/-- Takes the steps with a number of links that may still be replaced. -/
def walk (fs : FileSystem) (aim : Aim) : Nat → Loc → List Step → Except Errno Target
  | 0     => fs.walkWith aim fun _ _ => .error .tooManyLinks
  | k + 1 => fs.walkWith aim (fs.walk aim k)

/-- Follows a path from the top or from the working directory. -/
def resolve (fs : FileSystem) (aim : Aim) (p : Path) : Except Fault Target :=
  if p.bytes.contains 0 then .error .nulInPath
  else if p.isEmpty then .error (.os .notFound)
  else if pathLimit < p.bytes.length then .error (.os .nameTooLong)
  else
    match fs.walk aim linkLimit (if p.isAbsolute then [] else fs.cwd) p.steps with
    | .ok t    => .ok t
    | .error e => .error (.os e)

/-- What stands at a path, and where. -/
def lookup (fs : FileSystem) (follow : Bool) (p : Path) : Except Fault (Loc × Entry) := do
  match ← fs.resolve (.find follow) p with
  | .occupied l e => pure (l, e)
  | .vacant _ _   => throw (.os .notFound)

end FileSystem

end Assay
