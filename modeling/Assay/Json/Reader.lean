import Assay.Json.Value

/-!
# Json — reading a value

`parse` reads a text that is one value with blanks around it. It accepts every document without
fractions and exponents, in any layout.
-/

namespace Assay.Json

def isBlank (c : Char) : Bool := c = ' ' || c = '\t' || c = '\n' || c = '\r'

def skipBlanks (cs : List Char) : List Char := cs.dropWhile isBlank

def hexDigit? (c : Char) : Option Nat :=
  if '0' ≤ c ∧ c ≤ '9' then some (c.toNat - '0'.toNat)
  else if 'a' ≤ c ∧ c ≤ 'f' then some (c.toNat - 'a'.toNat + 10)
  else if 'A' ≤ c ∧ c ≤ 'F' then some (c.toNat - 'A'.toNat + 10)
  else none

/-- What the single letter behind a backslash stands for. -/
def letter? : Char → Option Char
  | '"'  => some '"'
  | '\\' => some '\\'
  | '/'  => some '/'
  | 'b'  => some '\x08'
  | 'f'  => some '\x0C'
  | 'n'  => some '\n'
  | 'r'  => some '\r'
  | 't'  => some '\t'
  | _    => none

/-- Where a reader of a string stands. A number above U+FFFF is written as two units, so the first
of them waits for the second. -/
inductive Spot where
  | plain (high : Option Nat)
  | escape (high : Option Nat)
  | unit (high : Option Nat) (missing value : Nat)
  deriving DecidableEq, Repr

/-- A unit of sixteen bits that was read in full. -/
def readUnit (high : Option Nat) (n : Nat) (acc : List Char) : Option (Spot × List Char) :=
  match high with
  | some h =>
    if 0xDC00 ≤ n ∧ n ≤ 0xDFFF then
      some (.plain none, Char.ofNat (0x10000 + (h - 0xD800) * 0x400 + (n - 0xDC00)) :: acc)
    else none
  | none =>
    if 0xD800 ≤ n ∧ n ≤ 0xDBFF then some (.plain (some n), acc)
    else if 0xDC00 ≤ n ∧ n ≤ 0xDFFF then none
    else some (.plain none, Char.ofNat n :: acc)

/-- One character of a string that does not end it. -/
def readSpot (spot : Spot) (c : Char) (acc : List Char) : Option (Spot × List Char) :=
  match spot with
  | .plain high =>
    if c = '\\' then some (.escape high, acc)
    else if high.isSome || c.toNat < 0x20 then none
    else some (.plain none, c :: acc)
  | .escape high =>
    if c = 'u' then some (.unit high 4 0, acc)
    else
      match high, letter? c with
      | none, some d => some (.plain none, d :: acc)
      | _, _         => none
  | .unit high missing value =>
    match hexDigit? c with
    | none => none
    | some d =>
      if 1 < missing then some (.unit high (missing - 1) (16 * value + d), acc)
      else readUnit high (16 * value + d) acc

/-- A string behind its opening quote; `acc` holds what was read, last first. -/
def stringFrom (spot : Spot) (acc : List Char) : List Char → Option (String × List Char)
  | []     => none
  | c :: r =>
    if c = '"' ∧ spot = .plain none then some (String.ofList acc.reverse, r)
    else
      match readSpot spot c acc with
      | some (spot, acc) => stringFrom spot acc r
      | none             => none

def stringAt : List Char → Option (String × List Char)
  | '"' :: r => stringFrom (.plain none) [] r
  | _        => none

/-- A run of digits in which no zero stands in front. -/
def natural (cs : List Char) : Option (Nat × List Char) :=
  let ds := cs.takeWhile Char.isDigit
  let r := cs.dropWhile Char.isDigit
  match ds with
  | []            => none
  | '0' :: _ :: _ => none
  | ds            => some (ds.foldl (fun n c => 10 * n + (c.toNat - '0'.toNat)) 0, r)

def word (w : List Char) (v : Json) (cs : List Char) : Option (Json × List Char) :=
  if w.isPrefixOf cs then some (v, cs.drop w.length) else none

/-- The items behind an opening bracket or a comma; `k` bounds their number. -/
def itemsWith (value : List Char → Option (Json × List Char)) :
    Nat → List Char → Option (List Json × List Char)
  | 0, _      => none
  | k + 1, cs => do
    let (v, r) ← value cs
    match skipBlanks r with
    | ',' :: r =>
      let (vs, r) ← itemsWith value k r
      pure (v :: vs, r)
    | ']' :: r => pure ([v], r)
    | _        => none

/-- The fields behind an opening brace or a comma; `k` bounds their number. -/
def fieldsWith (value : List Char → Option (Json × List Char)) :
    Nat → List Char → Option (List (String × Json) × List Char)
  | 0, _      => none
  | k + 1, cs => do
    let (key, r) ← stringAt (skipBlanks cs)
    match skipBlanks r with
    | ':' :: r =>
      let (v, r) ← value r
      match skipBlanks r with
      | ',' :: r =>
        let (fs, r) ← fieldsWith value k r
        pure ((key, v) :: fs, r)
      | '\x7d' :: r => pure ([(key, v)], r)
      | _           => none
    | _ => none

/-- A value with blanks in front, `k` levels deep at most. -/
def value : Nat → List Char → Option (Json × List Char)
  | 0, _      => none
  | k + 1, cs =>
    match skipBlanks cs with
    | '"' :: r => do
      let (s, r) ← stringFrom (.plain none) [] r
      pure (.str s, r)
    | '[' :: r =>
      match skipBlanks r with
      | ']' :: r => some (.arr [], r)
      | r => do
        let (vs, r) ← itemsWith (value k) (r.length + 1) r
        pure (.arr vs, r)
    | '\x7b' :: r =>
      match skipBlanks r with
      | '\x7d' :: r => some (.obj [], r)
      | r => do
        let (fs, r) ← fieldsWith (value k) (r.length + 1) r
        pure (.obj fs, r)
    | '-' :: r => do
      let (n, r) ← natural r
      pure (.int (-(n : Int)), r)
    | 'n' :: r => word ['n', 'u', 'l', 'l'] .null ('n' :: r)
    | 't' :: r => word ['t', 'r', 'u', 'e'] (.bool true) ('t' :: r)
    | 'f' :: r => word ['f', 'a', 'l', 's', 'e'] (.bool false) ('f' :: r)
    | r => do
      let (n, r) ← natural r
      pure (.int n, r)

/-- The value that a whole text describes; no value is nested deeper than its text is long. -/
def parse (s : String) : Option Json :=
  match value (s.toList.length + 1) s.toList with
  | some (v, r) => if (skipBlanks r).isEmpty then some v else none
  | none        => none

end Assay.Json
