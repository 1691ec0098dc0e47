import Assay.Json.Value

/-!
# Json — the two texts of a value

`compact` writes no blanks at all. `pretty` writes every item and field on a line of its own,
indented by two blanks for each level; what is empty stays on one line. Strings escape the quote,
the backslash and the control characters, and nothing else.
-/

namespace Assay.Json

/-- What stands for a character in a string. -/
def escape (c : Char) : List Char :=
  if c = '"' then ['\\', '"']
  else if c = '\\' then ['\\', '\\']
  else if c = '\x08' then ['\\', 'b']
  else if c = '\x0C' then ['\\', 'f']
  else if c = '\n' then ['\\', 'n']
  else if c = '\r' then ['\\', 'r']
  else if c = '\t' then ['\\', 't']
  else if c.toNat < 0x20 then
    ['\\', 'u', '0', '0', Nat.digitChar (c.toNat / 16), Nat.digitChar (c.toNat % 16)]
  else [c]

def string (s : String) : List Char := '"' :: s.toList.flatMap escape ++ ['"']

def integer : Int → List Char
  | .ofNat n   => Nat.toDigits 10 n
  | .negSucc n => '-' :: Nat.toDigits 10 (n + 1)

def boolean (b : Bool) : List Char := if b then ['t', 'r', 'u', 'e'] else ['f', 'a', 'l', 's', 'e']

mutual

/-- The value without blanks. -/
def compactChars : Json → List Char
  | .null       => ['n', 'u', 'l', 'l']
  | .bool b     => boolean b
  | .int n      => integer n
  | .str s      => string s
  | .arr items  => '[' :: compactItems items ++ [']']
  | .obj fields => '\x7b' :: compactFields fields ++ ['\x7d']

def compactItems : List Json → List Char
  | []      => []
  | [v]     => compactChars v
  | v :: vs => compactChars v ++ ',' :: compactItems vs

def compactFields : List (String × Json) → List Char
  | []           => []
  | [(k, v)]     => string k ++ ':' :: compactChars v
  | (k, v) :: fs => string k ++ ':' :: compactChars v ++ ',' :: compactFields fs

end

/-- The line feed and the blanks in front of a line at a level. -/
def newLine (level : Nat) : List Char := '\n' :: List.replicate (2 * level) ' '

mutual

/-- The value over several lines, its first at a given level. -/
def prettyChars (level : Nat) : Json → List Char
  | .null       => ['n', 'u', 'l', 'l']
  | .bool b     => boolean b
  | .int n      => integer n
  | .str s      => string s
  | .arr []     => ['[', ']']
  | .arr items  => '[' :: prettyItems (level + 1) items ++ newLine level ++ [']']
  | .obj []     => ['\x7b', '\x7d']
  | .obj fields => '\x7b' :: prettyFields (level + 1) fields ++ newLine level ++ ['\x7d']

def prettyItems (level : Nat) : List Json → List Char
  | []      => []
  | [v]     => newLine level ++ prettyChars level v
  | v :: vs => newLine level ++ prettyChars level v ++ ',' :: prettyItems level vs

def prettyFields (level : Nat) : List (String × Json) → List Char
  | []           => []
  | [(k, v)]     => newLine level ++ string k ++ ':' :: ' ' :: prettyChars level v
  | (k, v) :: fs =>
    newLine level ++ string k ++ ':' :: ' ' :: prettyChars level v ++ ',' :: prettyFields level fs

end

def compact (v : Json) : String := String.ofList (compactChars v)

def pretty (v : Json) : String := String.ofList (prettyChars 0 v)

end Assay.Json
