import Assay.Utility.Basic
import Assay.Text.Unprintable
import Assay.Text.Utf8

/-!
# Utility — names in messages

Programs put names in quotes so that a shell would read them as they are, or in curved quotes with
backslashes in front of what cannot be printed. Names are octets that may be UTF-8.

* `Quoting.forShell`: always quoted; `Quoting.ifNeeded`: only where a shell would misread the name.
* `Quoting.curved`: between curved quotes.
-/

namespace Assay.Quoting

/-- A character of a name. -/
inductive Glyph where
  /-- One that can be printed, by its octets. -/
  | plain (octets : List Char)
  /-- One that cannot. -/
  | hidden (octets : List Char)
  deriving DecidableEq, Repr

/-- Whether a code stands for a character that can be printed. -/
def isPrintable (n : Nat) : Bool :=
  if n < 0x20 || (0x7F ≤ n && n < 0xA0) then false
  else if n < 0x7F then true
  else n != 0x2028 && n != 0x2029 && !(0xFFF0 ≤ n && n < 0xFFF9)

/-- The character at the beginning of a text of octets and how many octets it has. -/
def decodeFront (cs : List Char) : Option (Nat × Nat) :=
  let sizes := [1, 2, 3, 4].filter (· ≤ cs.length)
  sizes.findSome? fun n =>
    match Text.Utf8.decode? (Text.Octets.toBytes (String.ofList (cs.take n))) with
    | some text =>
      match text.toList with
      | [c] => some (c.toNat, n)
      | _   => none
    | none => none

/-- The characters of a name. -/
def glyphs : Nat → List Char → List Glyph
  | 0, _      => []
  | _ + 1, [] => []
  | k + 1, c :: r =>
    match decodeFront (c :: r) with
    | some (code, n) =>
      (if isPrintable code then .plain ((c :: r).take n) else .hidden ((c :: r).take n)) ::
        glyphs k ((c :: r).drop n)
    | none => .hidden [c] :: glyphs k r

def glyphsOf (s : String) : List Glyph := glyphs (s.length + 1) s.toList

/-- The letter behind a backslash for some characters. -/
def letters : List (Char × Char) :=
  [('\x07', 'a'), ('\x08', 'b'), ('\x0c', 'f'), ('\n', 'n'), ('\r', 'r'), ('\t', 't'),
   ('\x0b', 'v')]

/-- An octet as a backslash and what stands behind it. -/
def escaped (c : Char) : List Char :=
  match letters.lookup c with
  | some l => ['\\', l]
  | none   =>
    let n := c.toNat
    ['\\', Nat.digitChar (n / 64), Nat.digitChar (n / 8 % 8), Nat.digitChar (n % 8)]

/-! ### For a shell -/

/-- Whether a shell would misread a character, given whether it stands in front and whether it
stands alone. -/
def isRisky (isFirst isAlone : Bool) (c : Char) : Bool :=
  if c = '\x7b' ∨ c = '\x7d' then isAlone
  else if c = '#' ∨ c = '~' then isFirst
  else " !\"$&()*;<=>[^\x60|'\\?:".toList.contains c

/-- Whether a name means something else without quotes. -/
def needsQuotes (s : String) : Bool :=
  let cs := s.toList
  cs.isEmpty || (glyphsOf s).any (fun
    | .hidden _ => true
    | .plain _  => false) ||
  cs.zipIdx.any fun c => isRisky (c.2 = 0) (cs.length = 1) c.1

/-- The quoted characters of a name. What cannot be printed stands between quotes of its own kind. -/
def shellBody : List Glyph → Bool → List Char
  | [], _                       => []
  | .plain ['\x27'] :: r, _     => "'\\''".toList ++ shellBody r false
  | .plain cs :: r, escaping    => (if escaping then "''".toList else []) ++ cs ++ shellBody r false
  | .hidden cs :: r, escaping   =>
    (if escaping then [] else "'$'".toList) ++ cs.flatMap escaped ++ shellBody r true

/-- Whether a character means the same in both kinds of straight quotes. -/
def isEven (isFirst isAlone : Bool) : Glyph → Bool
  | .plain [c]  =>
    c.isAlphanum || " '%+,-./:]_@".toList.contains c ||
      (isFirst && (c = '#' || c = '~')) || (isAlone && (c = '\x7b' || c = '\x7d'))
  | .plain _    => true
  | .hidden _   => false

/-- A name in quotes for a shell. -/
def forShell (s : String) : String :=
  let gs := glyphsOf s
  let isSimple := gs.zipIdx.all fun g => isEven (g.2 = 0) (gs.length = 1) g.1
  if s.toList.contains '\x27' && isSimple then "\"" ++ s ++ "\""
  else "'" ++ String.ofList (shellBody (glyphsOf s) false) ++ "'"

/-- A name, in quotes if a shell would misread it. -/
def ifNeeded (s : String) : String := if needsQuotes s then forShell s else s

/-! ### Curved quotes -/

def openQuote : String := "\u00e2\u0080\u0098"

def closeQuote : String := "\u00e2\u0080\u0099"

/-- A name between curved quotes. -/
def curved (s : String) : String :=
  let body := (glyphsOf s).flatMap fun
    | .plain ['\\'] => ['\\', '\\']
    | .plain cs     => if cs = closeQuote.toList then '\\' :: cs else cs
    | .hidden cs    => cs.flatMap escaped
  openQuote ++ String.ofList body ++ closeQuote

end Assay.Quoting
