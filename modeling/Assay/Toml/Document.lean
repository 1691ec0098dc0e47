import Assay.Toml.Number

/-!
# Toml — documents

A document is a list of lines: headers, which say which table the lines below them fill, and keys
with their values. `parse` reads one whole document.
-/

namespace Assay.Toml

/-! ### Tables -/

/-- Puts a value at a key that is there or at the end. -/
def Table.set (t : Table) (key : String) (v : Value) : Table :=
  if t.any (·.1 == key) then t.map fun e => if e.1 == key then (key, v) else e else t ++ [(key, v)]

/-- Changes the table at the end of a path. Tables that are missing on the way are made. A dotted
key passes only tables that headers passed through or dotted keys made; a header passes all but
those in braces, and of the tables of a double header the last. -/
def within (dotted : Bool) (change : Origin → Table → Except Fault Table) :
    List String → Origin → Table → Except Fault Table
  | [], origin, t => change origin t
  | key :: path, _, t =>
    match t.lookup key with
    | none => do
      let origin : Origin := if dotted then .dotted else .passed
      let inner ← within dotted change path origin []
      pure (t.set key (.table origin inner))
    | some (.table origin inner) =>
      if origin = .braces ∨ (dotted ∧ origin = .header) then .error (.duplicate key)
      else do
        let inner ← within dotted change path origin inner
        pure (t.set key (.table origin inner))
    | some (.tables items) => do
      let inner ← within dotted change path .header (items.getLast?.getD [])
      pure (t.set key (.tables (items.dropLast ++ [inner])))
    | some _ => .error (.notTable key)

/-- Adds a value under a key of one or more parts. A table that other keys of this kind cannot
reach again takes none: dotted keys go into tables made by dotted keys only. -/
def addEntry (path : List String) (v : Value) : Origin → Table → Except Fault Table :=
  within true (fun origin t =>
    let key := path.getLast?.getD ""
    if (origin == .dotted) == (path.length ≤ 1) then .error (.duplicate key)
    else if t.any (·.1 == key) then .error (.duplicate key)
    else .ok (t.set key v)) path.dropLast

/-- Opens the table of a header. -/
def openTable (path : List String) (t : Table) : Except Fault Table :=
  within false (fun _ t =>
    let key := path.getLast?.getD ""
    match t.lookup key with
    | none                         => .ok (t.set key (.table .header []))
    | some (.table .passed inner)  => .ok (t.set key (.table .header inner))
    | some _                       => .error (.duplicate key)) path.dropLast .header t

/-- Opens one more table of a double header. -/
def openItem (path : List String) (t : Table) : Except Fault Table :=
  within false (fun _ t =>
    let key := path.getLast?.getD ""
    match t.lookup key with
    | none                 => .ok (t.set key (.tables [[]]))
    | some (.tables items) => .ok (t.set key (.tables (items ++ [[]])))
    | some _               => .error (.duplicate key)) path.dropLast .header t

/-! ### Values -/

/-- The items of an array behind its opening bracket; a comma may end them. `k` bounds their
number. -/
def items (item : Reader Value) : Nat → Reader (List Value)
  | 0, _      => .error (.expected "a closing bracket")
  | k + 1, cs => do
    let cs ← skipLines cs.length cs
    match cs with
    | ']' :: r => pure ([], r)
    | cs =>
      let (v, r) ← item cs
      let r ← skipLines r.length r
      match r with
      | ',' :: r =>
        let (vs, r) ← items item k r
        pure (v :: vs, r)
      | ']' :: r => pure ([v], r)
      | _ => throw (.expected "a comma or a closing bracket")

/-- The entries of a table in braces, from its first key on. -/
def entries (item : Reader Value) : Nat → Table → Reader Table
  | 0, _, _      => .error (.expected "a closing brace")
  | k + 1, t, cs => do
    let (path, r) ← key cs
    match r with
    | '=' :: r =>
      let (v, r) ← item (skipSpaces r)
      let t ← addEntry path v .braces t
      match skipSpaces r with
      | ',' :: r    => entries item k t r
      | '\x7d' :: r => pure (t, r)
      | _           => throw (.expected "a comma or a closing brace")
    | _ => throw (.expected "an equals sign")

/-- A word and the value it stands for. -/
def word (w : String) (v : Value) : Reader Value := fun cs =>
  if w.toList.isPrefixOf cs then .ok (v, cs.drop w.length) else .error .badValue

/-- A value, arrays and tables in braces holding values read by `inner?`, if they may be nested
any further. -/
def valueWith (inner? : Option (Reader Value)) : Reader Value
  | '"' :: '"' :: '"' :: r => do
    let (s, r) ← longString .plain [] (skipFirstLineFeed r)
    pure (.text s, r)
  | '\x27' :: '\x27' :: '\x27' :: r => do
    let (s, r) ← longLiteral 0 [] (skipFirstLineFeed r)
    pure (.text s, r)
  | '"' :: r => do
    let (s, r) ← basicString .plain [] r
    pure (.text s, r)
  | '\x27' :: r => do
    let (s, r) ← literalString [] r
    pure (.text s, r)
  | '[' :: r => do
    match inner? with
    | none => throw .tooDeep
    | some inner =>
      let (vs, r) ← items inner (r.length + 1) r
      pure (.array vs, r)
  | '\x7b' :: r => do
    match inner?, skipSpaces r with
    | none, _               => throw .tooDeep
    | some _, '\x7d' :: r   => pure (.table .braces [], r)
    | some inner, r =>
      let (t, r) ← entries inner (r.length + 1) [] r
      pure (.table .braces t, r)
  | 't' :: r => word "true" (.boolean true) ('t' :: r)
  | 'f' :: r => word "false" (.boolean false) ('f' :: r)
  | cs => number cs

/-- A value in which arrays and tables in braces are nested at most `k` deep. -/
def value : Nat → Reader Value
  | 0     => valueWith none
  | k + 1 => valueWith (some (value k))

/-- How deep values may be nested. -/
def depthLimit : Nat := 79

/-! ### Lines -/

/-- The document so far and the header that holds. -/
structure Draft where
  root : Table
  path : List String

/-- Reads one line; none at the end of the text. -/
def line (d : Draft) (cs : List Char) : Except Fault (Option (Draft × List Char)) := do
  match skipSpaces cs with
  | []               => pure none
  | '\n' :: r        => pure (some (d, r))
  | '#' :: r         => pure (some (d, ← lineEnd ('#' :: r)))
  | '[' :: '[' :: r  =>
    let (path, r) ← key r
    match r with
    | ']' :: ']' :: r => pure (some (⟨← openItem path d.root, path⟩, ← lineEnd r))
    | _               => throw (.expected "two closing brackets")
  | '[' :: r         =>
    let (path, r) ← key r
    match r with
    | ']' :: r => pure (some (⟨← openTable path d.root, path⟩, ← lineEnd r))
    | _        => throw (.expected "a closing bracket")
  | cs               =>
    let (path, r) ← key cs
    match r with
    | '=' :: r =>
      let (v, r) ← value depthLimit (skipSpaces r)
      let r ← lineEnd r
      pure (some (⟨← within false (addEntry path v) d.path .header d.root, d.path⟩, r))
    | _ => throw (.expected "an equals sign")

/-- Reads all lines; `k` bounds their number. -/
def document : Nat → Draft → List Char → Except Fault Table
  | 0, d, _      => .ok d.root
  | k + 1, d, cs => do
    match ← line d cs with
    | none         => pure d.root
    | some (d, cs) => document k d cs

/-- Drops each carriage return that stands before a line feed. Goes from the end to the front and
keeps the character last seen. -/
def dropReturns (cs : List Char) : List Char :=
  (cs.foldr (fun c (s : Option Char × List Char) =>
    (some c, if c = '\r' ∧ s.1 = some '\n' then s.2 else c :: s.2)) (none, [])).2

/-- Drops a byte order mark in front. -/
def dropMark : List Char → List Char
  | '\uFEFF' :: r => r
  | cs            => cs

/-- The table that a document describes. -/
def parse (s : String) : Except Fault Table :=
  let cs := dropReturns (dropMark s.toList)
  document (cs.length + 1) ⟨[], []⟩ cs

end Assay.Toml
