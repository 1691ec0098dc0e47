import Assay.Fixture

/-!
# Discovery — which fixtures there are

Every directory below the root whose name starts with three digits is a fixture, those inside other
fixtures too; symbolic links are not followed. Fixtures in the same directory form a suite. Suites
come in the order of their directories, a directory before what is inside it.

* `isFixtureName`: the rule for names.
* `walk`: the fixtures below a directory, each with the key of its suite.
* `discover`: the suites below a root.
-/

namespace Assay

/-- Whether a name starts with three digits. -/
def isFixtureName (name : String) : Bool :=
  match name.toList with
  | a :: b :: c :: _ => a.isDigit && b.isDigit && c.isDigit
  | _                => false

namespace Discovery

/-- A fixture and what tells its suite from others: where its parent lies below the root. -/
structure Found where
  parent : List Component
  fixture : Fixture
  deriving DecidableEq, Repr

/-- The components of a directory behind those of the root. -/
def parentKey (root dir : Path) : List Component := (root.behind? dir).getD dir.components

/-- The fixtures below a directory, in the order of the names on the way to them. A directory whose
path is too long to be asked for cannot be listed. `k` bounds the number of levels. -/
def walk (fs : FileSystem) (root : Path) : Nat → Path → Loc → Except Error (List Found)
  | 0, _, _     => .ok []
  | k + 1, p, d =>
    if FileSystem.pathLimit < p.bytes.length then .error (.discovery p (.os .nameTooLong))
    else do
      let names := (fs.names d).mergeSort fun a b => decide (a ≤ b)
      let found ← (names.filter fun n => fs.isDirAt (n :: d)).mapM fun n => do
        let child := p.join ⟨n⟩
        let here :=
          if isFixtureName (Text.Utf8.decodeLossy n) then [⟨parentKey root p, ⟨child⟩⟩] else []
        pure (here ++ (← walk fs root k child (n :: d)))
      pure found.flatten

/-- The name of the suite with a key: the names in it with slashes between them, `root` if there are
none. -/
def suiteName (key : List Component) : String :=
  let names := key.filterMap fun
    | .name n => some (Text.Utf8.decodeLossy n)
    | _       => none
  if names.isEmpty then "root" else String.intercalate "/" names

/-- Whether a key comes no later than another. -/
def keyLE (a b : List Component) : Bool := decide (a.map Component.key ≤ b.map Component.key)

/-- The suites of what was found, in the order of their keys. -/
def group (found : List Found) : List Suite :=
  let keys := (found.map (·.parent)).eraseDups.mergeSort keyLE
  keys.map fun key =>
    .ofFixtures (suiteName key) ((found.filter (·.parent = key)).map (·.fixture))

end Discovery

/-- The suites below a root. No level of a tree is without an entry, so the number of entries bounds
its levels. -/
def discover (fs : FileSystem) (root : Path) : Except Error (List Suite) :=
  match fs.openDir root with
  | .error why => .error (.discovery root why)
  | .ok d      => Discovery.group <$> Discovery.walk fs root (fs.entries.length + 1) root d

end Assay
