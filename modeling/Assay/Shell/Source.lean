import Assay.Shell.Command

/-!
# Shell — the text of a script as it is read

What is left of a script, and what has to be remembered while it is read: the line, the abbreviations
whose text is being read, the texts that are to follow the line.

* `Source`, `Reading`: the state and the readers on it.
* `Token`: what a script is cut into.
-/

namespace Assay.Shell

/-- A redirection that waits for its word. -/
inductive Opened where
  | direction (fd : Nat) (d : Direction)
  /-- From the lines that follow, without their tabs in front if that is wanted. -/
  | lines (fd : Nat) (withoutTabs : Bool)
  deriving DecidableEq, Repr

inductive Token where
  /-- A word, and its text if all of it stands for itself without quotes. -/
  | word (parts : Word) (bare : Option String)
  | keyword (s : String)
  | sign (s : String)
  | redirect (r : Opened)
  | newline
  | finish

/-- A line that ends a text. -/
structure EndLine where
  line : String
  /-- Whether lines lose their tabs in front. -/
  withoutTabs : Bool
  deriving DecidableEq, Repr

/-- Lines that are to follow. -/
structure Awaited where
  id : Nat
  mark : EndLine
  isQuoted : Bool
  deriving DecidableEq, Repr

structure Source where
  rest : List Char
  line : Nat := 1
  /-- Abbreviations and what they stand for. -/
  aliases : List (String × String) := []
  /-- The abbreviations whose text is being read, and whether the next word may be one too. -/
  active : List (String × Bool) := []
  spreads : Bool := false
  /-- A token that was read too early. -/
  pushed : Option Token := none
  awaited : List Awaited := []
  /-- The line that ends the text being read and, once it has been seen, what stands behind it. -/
  mark : Option EndLine := none
  behind : List Char := []
  /-- Whether dollar signs and the like stand for themselves. -/
  isPlain : Bool := false
  /-- The texts read, by number, and the next number. -/
  texts : List (Nat × Word) := []
  nextText : Nat := 0

/-- Why a script is no script, and where. -/
structure Complaint where
  line : Nat
  message : String
  deriving DecidableEq, Repr

abbrev Reading := StateT Source (Except Complaint)

/-- Stands behind the text of an abbreviation. -/
def aliasEnd : Char := '\u0100'

namespace Reading

def fail {α : Type} (message : String) : Reading α := fun s => .error ⟨s.line, message⟩

/-- How a token shows in a message. -/
def shown : Token → String
  | .word _ _    => "word"
  | .keyword s   => "\"" ++ s ++ "\""
  | .sign s      => "\"" ++ s ++ "\""
  | .redirect _  => "redirection"
  | .newline     => "newline"
  | .finish      => "end of file"

def unexpected {α : Type} (t : Token) : Reading α := fail (shown t ++ " unexpected")

/-- A token that stands where another one is needed. -/
def expected {α : Type} (t : Token) (wanted : String) : Reading α :=
  fail (shown t ++ " unexpected (expecting " ++ wanted ++ ")")

/-- Goes on behind some characters. -/
def skipTo (rest : List Char) : Reading Unit := modify fun s => { s with rest := rest }

/-- Goes on behind some characters with so many line ends among them. -/
def skipLines (lines : Nat) (rest : List Char) : Reading Unit :=
  modify fun s => { s with rest := rest, line := s.line + lines }

/-- At the beginning of a line, ends the text if this is the line that does so. -/
def seekMark : Reading Unit := modify fun s =>
  match s.mark with
  | none   => s
  | some m =>
    let cs := if m.withoutTabs then s.rest.dropWhile (· = '\t') else s.rest
    let text := m.line.toList
    let behind := cs.drop text.length
    if text.isPrefixOf cs && (behind.isEmpty || behind.head? = some '\n') then
      { s with rest := [], behind := behind.drop 1, line := s.line + 1 }
    else { s with rest := cs }

/-- Goes on behind a line end. -/
def skipLine (rest : List Char) : Reading Unit := do
  skipLines 1 rest
  seekMark

/-- Ends the text of an abbreviation. -/
def leaveAlias (rest : List Char) : Reading Unit := modify fun s =>
  match s.active with
  | (_, spreads) :: r => { s with rest := rest, active := r, spreads := s.spreads || spreads }
  | []                => { s with rest := rest }

def push (t : Token) : Reading Unit := modify fun s => { s with pushed := some t }

/-- Whether a token is a certain sign. -/
def isSign (t : Token) (s : String) : Bool :=
  match t with
  | .sign u => u == s
  | _       => false

def isKeyword (t : Token) (s : String) : Bool :=
  match t with
  | .keyword u => u == s
  | _          => false

/-- Whether a token can only stand behind a list of commands. -/
def endsList : Token → Bool
  | .finish    => true
  | .sign s    => [")", ";;"].contains s
  | .keyword s => ["do", "done", "elif", "else", "esac", "fi", "then", "\x7d"].contains s
  | _          => false

/-! ### Drafts of words -/

/-- A word under way, its parts newest first. -/
structure Draft where
  parts : List Part := []
  /-- Whether some of it is quoted. -/
  hasQuotes : Bool := false

namespace Draft

/-- Adds text, to the last part if that is of the same kind. -/
def add (d : Draft) (cs : List Char) (quoted : Bool) : Draft :=
  match d.parts with
  | .text s q :: r =>
    if q = quoted then { d with parts := .text (s ++ String.ofList cs) q :: r }
    else { d with parts := .text (String.ofList cs) quoted :: d.parts }
  | parts => { d with parts := .text (String.ofList cs) quoted :: parts }

def part (d : Draft) (p : Part) : Draft := { d with parts := p :: d.parts }

/-- Marks that something is quoted, even if it is nothing. -/
def mark (d : Draft) : Draft := { d.part (.text "" true) with hasQuotes := true }

def word (d : Draft) : Word := d.parts.reverse

/-- The text of a word that stands for itself without quotes. -/
def bare (d : Draft) : Option String :=
  match d.hasQuotes, d.parts with
  | false, []              => some ""
  | false, [.text s false] => some s
  | _, _                   => none

end Draft

/-- The text of a word with its quotes taken off. -/
def unquoted (w : Word) : String :=
  String.join (w.map fun
    | .text s _ => s
    | _         => "")

end Reading

end Assay.Shell
