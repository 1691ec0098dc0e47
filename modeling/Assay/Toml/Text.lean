import Assay.Toml.Value

/-!
# Toml — blanks, comments, strings and keys

The texts here have no carriage return before a line feed: a document drops these first, so a
carriage return is a control character like any other.
-/

namespace Assay.Toml

def isSpace (c : Char) : Bool := c = ' ' || c = '\t'

/-- What may stand in comments and strings: no control character but the tab. -/
def isPlain (c : Char) : Bool := c = '\t' || (0x20 ≤ c.toNat && c.toNat ≠ 0x7F)

def skipSpaces (cs : List Char) : List Char := cs.dropWhile isSpace

/-- Passes the text of a comment up to the line feed or the end. -/
def skipComment (cs : List Char) : Except Fault (List Char) :=
  match cs.dropWhile isPlain with
  | []        => .ok []
  | '\n' :: r => .ok ('\n' :: r)
  | _         => .error .controlCharacter

/-- Passes what may stand behind a value or a header on its line. -/
def lineEnd (cs : List Char) : Except Fault (List Char) := do
  let cs ← match skipSpaces cs with
    | '#' :: r => skipComment r
    | r        => pure r
  match cs with
  | []        => pure []
  | '\n' :: r => pure r
  | _         => throw .trailing

/-- Passes blanks, line feeds and comments; `k` bounds the number of lines. -/
def skipLines : Nat → List Char → Except Fault (List Char)
  | 0, cs     => .ok cs
  | k + 1, cs =>
    match skipSpaces cs with
    | '\n' :: r => skipLines k r
    | '#' :: r  =>
      match skipComment r with
      | .ok ('\n' :: r) => skipLines k r
      | .ok _           => .error (.expected "a line feed")
      | .error e        => .error e
    | r => .ok r

/-! ### Strings -/

def hexDigit? (c : Char) : Option Nat :=
  if '0' ≤ c ∧ c ≤ '9' then some (c.toNat - '0'.toNat)
  else if 'a' ≤ c ∧ c ≤ 'f' then some (c.toNat - 'a'.toNat + 10)
  else if 'A' ≤ c ∧ c ≤ 'F' then some (c.toNat - 'A'.toNat + 10)
  else none

/-- The character with a number; surrogates and numbers beyond the last plane have none. -/
def scalar? (n : Nat) : Option Char :=
  if h : n.isValidChar then some (Char.ofNatAux n h) else none

/-- What the single letter behind a backslash stands for. -/
def letter? : Char → Option Char
  | 'b'  => some '\x08'
  | 't'  => some '\t'
  | 'n'  => some '\n'
  | 'f'  => some '\x0C'
  | 'r'  => some '\r'
  | '"'  => some '"'
  | '\\' => some '\\'
  | _    => none

/-- Where a reader of a string in double quotes stands. -/
inductive Spot where
  | plain
  /-- Behind a backslash. -/
  | escape
  /-- Inside the number of a character: hexadecimal digits still to come, and the value so far. -/
  | number (missing value : Nat)
  /-- Behind a backslash that ends a line, or may turn out to. -/
  | gap (ended : Bool)
  /-- Behind a run of quotes. -/
  | quotes (n : Nat)
  deriving DecidableEq, Repr

/-- One character behind a backslash. -/
def readEscape (c : Char) (acc : List Char) : Except Fault (Spot × List Char) :=
  match letter? c with
  | some d => .ok (.plain, d :: acc)
  | none   =>
    if c = 'u' then .ok (.number 4 0, acc)
    else if c = 'U' then .ok (.number 8 0, acc)
    else .error .badEscape

/-- One digit of a character's number. -/
def readNumber (missing value : Nat) (c : Char) (acc : List Char) :
    Except Fault (Spot × List Char) :=
  match hexDigit? c with
  | none => .error .badEscape
  | some d =>
    let value := 16 * value + d
    if 1 < missing then .ok (.number (missing - 1) value, acc)
    else
      match scalar? value with
      | some d => .ok (.plain, d :: acc)
      | none   => .error .badEscape

/-- A string on one line, behind its opening quote; `acc` holds what was read, last first. -/
def basicString : Spot → List Char → Reader String
  | _, _, []        => .error .unterminatedString
  | spot, acc, c :: r =>
    match spot with
    | .escape =>
      match readEscape c acc with
      | .ok (spot, acc) => basicString spot acc r
      | .error e        => .error e
    | .number missing value =>
      match readNumber missing value c acc with
      | .ok (spot, acc) => basicString spot acc r
      | .error e        => .error e
    | _ =>
      if c = '"' then .ok (String.ofList acc.reverse, r)
      else if c = '\\' then basicString .escape acc r
      else if isPlain c then basicString .plain (c :: acc) r
      else .error .controlCharacter

/-- A character of a string over several lines that nothing before it concerns. -/
def readLong (c : Char) (acc : List Char) : Except Fault (Spot × List Char) :=
  if c = '"' then .ok (.quotes 1, acc)
  else if c = '\\' then .ok (.escape, acc)
  else if c = '\n' || isPlain c then .ok (.plain, c :: acc)
  else .error .controlCharacter

/-- One more character of a string over several lines. -/
def readSpot (spot : Spot) (c : Char) (acc : List Char) : Except Fault (Spot × List Char) :=
  match spot with
  | .plain                => readLong c acc
  | .escape               =>
    if isSpace c then .ok (.gap false, acc)
    else if c = '\n' then .ok (.gap true, acc)
    else readEscape c acc
  | .number missing value => readNumber missing value c acc
  | .gap false            =>
    if isSpace c then .ok (.gap false, acc)
    else if c = '\n' then .ok (.gap true, acc)
    else .error .badEscape
  | .gap true             => if isSpace c || c = '\n' then .ok (.gap true, acc) else readLong c acc
  | .quotes n             =>
    if c = '"' then .ok (.quotes (n + 1), acc) else readLong c (List.replicate n '"' ++ acc)

/-- A string over several lines, behind its three opening quotes. Three quotes end it, and up to
two more just before them belong to it. -/
def longString : Spot → List Char → Reader String
  | .quotes n, acc, [] =>
    if 3 ≤ n ∧ n ≤ 5 then .ok (String.ofList (List.replicate (n - 3) '"' ++ acc).reverse, [])
    else .error .unterminatedString
  | _, _, [] => .error .unterminatedString
  | spot, acc, c :: r =>
    match spot with
    | .quotes n =>
      if c ≠ '"' ∧ 3 ≤ n then
        if n ≤ 5 then .ok (String.ofList (List.replicate (n - 3) '"' ++ acc).reverse, c :: r)
        else .error .trailing
      else
        match readSpot (.quotes n) c acc with
        | .ok (spot, acc) => longString spot acc r
        | .error e        => .error e
    | _ =>
      match readSpot spot c acc with
      | .ok (spot, acc) => longString spot acc r
      | .error e        => .error e

/-- A string between apostrophes, behind the first. -/
def literalString : List Char → Reader String
  | _, []       => .error .unterminatedString
  | acc, c :: r =>
    if c = '\x27' then .ok (String.ofList acc.reverse, r)
    else if isPlain c then literalString (c :: acc) r
    else .error .controlCharacter

/-- A string between triple apostrophes, behind the first three; `n` apostrophes were just read. -/
def longLiteral : Nat → List Char → Reader String
  | n, acc, [] =>
    if 3 ≤ n ∧ n ≤ 5 then .ok (String.ofList (List.replicate (n - 3) '\x27' ++ acc).reverse, [])
    else .error .unterminatedString
  | n, acc, c :: r =>
    if c = '\x27' then longLiteral (n + 1) acc r
    else if 3 ≤ n then
      if n ≤ 5 then .ok (String.ofList (List.replicate (n - 3) '\x27' ++ acc).reverse, c :: r)
      else .error .trailing
    else if c = '\n' || isPlain c then longLiteral 0 (c :: (List.replicate n '\x27' ++ acc)) r
    else .error .controlCharacter

/-- A line feed right behind the opening quotes does not count. -/
def skipFirstLineFeed : List Char → List Char
  | '\n' :: r => r
  | cs        => cs

/-! ### Keys -/

def isBare (c : Char) : Bool :=
  ('a' ≤ c && c ≤ 'z') || ('A' ≤ c && c ≤ 'Z') || ('0' ≤ c && c ≤ '9') || c = '_' || c = '-'

/-- One part of a key: bare, or a string on one line. -/
def keyPart : Reader String
  | '"' :: r    => basicString .plain [] r
  | '\x27' :: r => literalString [] r
  | cs          =>
    match cs.takeWhile isBare with
    | []   => .error .badKey
    | name => .ok (String.ofList name, cs.dropWhile isBare)

/-- The parts of a key, with dots between them and blanks around; `k` bounds their number. -/
def keyParts : Nat → Reader (List String)
  | 0, _      => .error .tooDeep
  | k + 1, cs => do
    let (part, r) ← keyPart (skipSpaces cs)
    match skipSpaces r with
    | '.' :: r =>
      let (parts, r) ← keyParts k r
      pure (part :: parts, r)
    | r => pure ([part], r)

/-- The greatest number of parts of a key. -/
def keyLimit : Nat := 79

def key : Reader (List String) := keyParts keyLimit

end Assay.Toml
