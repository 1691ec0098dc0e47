import Assay.FileSystem.Operations
import Assay.Text.Octets

/-!
# Shell — patterns

A pattern covers texts: some of its characters stand for themselves, others for any character, for
any text or for one of several characters. What was quoted in a script stands for itself.

* `Pattern.covers`: whether a pattern covers all of a text.
* `Pattern.paths`: the paths that a pattern covers, in order.
-/

namespace Assay.Shell

/-- A character of a pattern, and whether it may have a meaning beyond itself. -/
structure Mark where
  char : Char
  isActive : Bool
  deriving DecidableEq, Repr

abbrev Pattern := List Mark

namespace Pattern

/-- Takes off the backslashes that have a meaning: what follows one stands for itself. -/
def settle : Pattern → Pattern
  | []          => []
  | [m]         => [⟨m.char, m.isActive && m.char != '\\'⟩]
  | m :: n :: r =>
    if m.isActive && m.char = '\\' then ⟨n.char, false⟩ :: settle r else m :: settle (n :: r)

def ofText (s : String) : Pattern := s.toList.map (⟨·, true⟩)

/-- The characters of a pattern. -/
def text (p : Pattern) : String := String.ofList (p.map (·.char))

/-! ### Sets of characters -/

/-- Characters are ordered as signed octets. -/
def rank (c : Char) : Int := if c.toNat < 128 then c.toNat else (c.toNat : Int) - 256

def isPunctuation (c : Char) : Bool := '!' ≤ c && c ≤ '~' && !c.isAlphanum

/-- The classes of characters by name. -/
def classes : List (String × (Char → Bool)) :=
  [("alnum", Char.isAlphanum), ("alpha", Char.isAlpha), ("digit", Char.isDigit),
   ("lower", Char.isLower), ("upper", Char.isUpper),
   ("space", fun c => " \t\n\x0b\x0c\r".toList.contains c),
   ("blank", fun c => c = ' ' || c = '\t'), ("cntrl", fun c => c < ' ' || c = '\x7f'),
   ("graph", fun c => '!' ≤ c && c ≤ '~'), ("print", fun c => ' ' ≤ c && c ≤ '~'),
   ("punct", isPunctuation),
   ("xdigit", fun c => c.isDigit || ('a' ≤ c && c ≤ 'f') || ('A' ≤ c && c ≤ 'F'))]

/-- The class that stands behind an opening bracket, and what follows it. -/
def class? (p : Pattern) : Option ((Char → Bool) × Pattern) :=
  classes.findSome? fun (name, holds) =>
    let shown := ofText (":" ++ name ++ ":]")
    if shown.isPrefixOf p then some (holds, p.drop shown.length) else none

def isActive (m : Mark) (c : Char) : Bool := m.isActive && m.char = c

/-- Whether a character is in a set, given what is known of it so far; what follows the set. A set
without an end is none. The first character of a set never ends it. -/
def inSet (c : Char) : Nat → Bool → Bool → Pattern → Option (Bool × Pattern)
  | 0, _, _, _                     => none
  | _, _, _, []                    => none
  | k + 1, found, isFirst, m :: p =>
    if isActive m ']' && !isFirst then some (found, p)
    else
      match (if isActive m '[' then class? p else none) with
      | some (holds, r) => inSet c k (found || holds c) false r
      | none            =>
        match p with
        | dash :: e :: r =>
          if isActive dash '-' && !isActive e ']' then
            inSet c k (found || (rank m.char ≤ rank c && rank c ≤ rank e.char)) false r
          else inSet c k (found || m.char = c) false p
        | _ => inSet c k (found || m.char = c) false p

/-- Whether a character is in the set behind an opening bracket, and what follows the set. -/
def set? (c : Char) (p : Pattern) : Option (Bool × Pattern) :=
  match p with
  | m :: r =>
    if isActive m '!' then (inSet c (p.length + 1) false true r).map fun s => (!s.1, s.2)
    else inSet c (p.length + 1) false true p
  | []     => none

/-! ### Texts -/

/-- Whether a pattern covers all of a text; `k` is enough if it is more than both lengths. -/
def fits : Nat → Pattern → List Char → Bool
  | 0, _, _          => false
  | _ + 1, [], cs    => cs.isEmpty
  | k + 1, m :: p, cs =>
    if isActive m '*' then
      fits k p cs ||
        match cs with
        | []     => false
        | _ :: r => fits k (m :: p) r
    else
      match cs with
      | []     => false
      | c :: r =>
        if isActive m '?' then fits k p r
        else
          match (if isActive m '[' then set? c p else none) with
          | some (found, q) => found && fits k q r
          | none            => m.char = c && fits k p r

def covers (p : Pattern) (cs : List Char) : Bool :=
  let p := p.settle
  fits (p.length + cs.length + 1) p cs

/-- How many characters a pattern covers at one end of a text, the fewest or the most; none of them if
it covers no such part. -/
def reach (p : Pattern) (atEnd longest : Bool) (cs : List Char) : Nat :=
  let sizes := List.range (cs.length + 1)
  let sizes := if longest then sizes.reverse else sizes
  (sizes.find? fun n =>
    p.covers (if atEnd then cs.drop (cs.length - n) else cs.take n)).getD 0

/-! ### Paths -/

/-- Whether anything in a pattern has a meaning beyond itself. -/
def isWild (p : Pattern) : Bool := p.any fun m => m.isActive && "*?[".toList.contains m.char

/-- The parts of a pattern between slashes. -/
def cutAtSlashes (p : Pattern) : List Pattern :=
  p.foldr (fun m parts =>
    match parts with
    | []      => [[m]]
    | q :: qs => if m.char = '/' then [] :: q :: qs else (m :: q) :: qs) [[]]

/-- The names in the directory that a text of octets names, those of itself and the one above
included. -/
def namesAt (fs : FileSystem) (dir : String) : List String :=
  match fs.openDir ⟨Text.Octets.toBytes (if dir.isEmpty then "." else dir)⟩ with
  | .ok l    => "." :: ".." :: (fs.names l).map Text.Octets.ofBytes
  | .error _ => []

/-- The paths below some path that the parts of a pattern cover. -/
def pathsBelow (fs : FileSystem) (base : String) : List Pattern → List String
  | []          => []
  | part :: more =>
    let names :=
      if part.isWild then
        let hidden := part.head?.any fun m => m.char = '.'
        (namesAt fs base).filter fun n =>
          (hidden || n.toList.head? != some '.') && part.covers n.toList
      else [part.settle.text]
    match more with
    | [] =>
      let found := names.filter fun n =>
        part.isWild || (fs.lookup false ⟨Text.Octets.toBytes (base ++ n)⟩).isOk
      found.map (base ++ ·)
    | more => names.flatMap fun n => pathsBelow fs (base ++ n ++ "/") more

/-- Whether one text of octets stands in front of another. -/
def precedes (a b : String) : Bool := decide (a ≤ b)

/-- The paths that a pattern covers, in order. -/
def paths (fs : FileSystem) (p : Pattern) : List String :=
  (pathsBelow fs "" p.cutAtSlashes).mergeSort precedes

end Pattern

end Assay.Shell
