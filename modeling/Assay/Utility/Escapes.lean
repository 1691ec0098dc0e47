import Assay.Text.Utf8
import Assay.Utility.Basic
import Assay.Utility.Digits

/-!
# Utility — backslash escapes

A backslash and what follows it may stand for one character. Which escapes there are differs between
formats, their arguments and `echo`, and between the shell's own utilities and programs.
-/

namespace Assay

/-- The escapes that a text may have besides the common ones. -/
structure Escapes where
  /-- Whether an octal number may have a zero in front of its three digits. -/
  leadingZero : Bool := false
  hex : Bool := false
  /-- Whether there is one that ends all printing. -/
  stop : Bool := false
  quote : Bool := false
  /-- Whether a character may be given by its number, and hexadecimal digits must not be missing. -/
  named : Bool := false
  deriving DecidableEq, Repr

/-- What an escape comes to. -/
inductive Expansion where
  /-- Characters, and what is left of the text. -/
  | text (cs rest : List Char)
  /-- The end of all printing. -/
  | stop
  | fault (why : String)
  deriving DecidableEq, Repr

namespace Escapes

def format : Caller → Escapes
  | .shell _   => {}
  | .program _ => { hex := true, stop := true, quote := true, named := true }

def argument : Caller → Escapes
  | .shell _   => { leadingZero := true, stop := true }
  | .program _ => { leadingZero := true, hex := true, stop := true, quote := true, named := true }

def echo : Caller → Escapes
  | .shell _   => { leadingZero := true, stop := true }
  | .program _ => { leadingZero := true, hex := true, stop := true }

end Escapes

/-- The letters of common escapes. -/
def commonEscapes : List (Char × Char) :=
  [('a', '\x07'), ('b', '\x08'), ('e', '\x1b'), ('f', '\x0c'), ('n', '\n'), ('r', '\r'),
   ('t', '\t'), ('v', '\x0b'), ('\\', '\\')]

/-- The character with the low eight bits of a number. -/
def byteChar (n : Nat) : Char := Char.ofNat (n % 256)

/-- The character with a number, given the letter and the digits that it is written with. -/
def namedChar (letter : Char) (digits : Nat) (cs : List Char) : Expansion :=
  match readDigits 16 digits cs with
  | (n, v, rest) =>
    if n < digits then .fault "missing hexadecimal number in escape"
    else
      let written := '\\' :: letter :: cs.take digits
      if 0xD800 ≤ v ∧ v ≤ 0xDFFF then
        .fault ("invalid universal character name " ++ String.ofList written)
      else if 0x10FFFF < v then .text written rest
      else
        let bytes := Text.Utf8.encode (String.singleton (Char.ofNat v))
        .text (Text.Octets.ofBytes bytes).toList rest

/-- What an escape stands for, given what follows its backslash. -/
def Escapes.expand (e : Escapes) (cs : List Char) : Expansion :=
  match cs with
  | [] => .text ['\\'] []
  | c :: r =>
    match commonEscapes.lookup c with
    | some d => .text [d] r
    | none =>
      if c = 'c' && e.stop then .stop
      else if c = '"' && e.quote then .text ['"'] r
      else if c = 'x' && e.hex then
        match readDigits 16 2 r with
        | (0, _, _)    =>
          if e.named then .fault "missing hexadecimal number in escape" else .text ['\\', 'x'] r
        | (_, v, rest) => .text [byteChar v] rest
      else if c = 'u' && e.named then namedChar c 4 r
      else if c = 'U' && e.named then namedChar c 8 r
      else
        let (n, v, rest) :=
          if c = '0' && e.leadingZero then
            let (_, v, rest) := readDigits 8 3 r
            (1, v, rest)
          else readDigits 8 3 (c :: r)
        if n ≠ 0 then .text [byteChar v] rest
        else if e.named then .text ['\\', c] r
        else .text ['\\'] (c :: r)

/-- A text with its escapes expanded, and what ended all printing if anything did. -/
def Escapes.expandAll (e : Escapes) : Nat → List Char → List Char × Option Expansion
  | 0, _ => ([], none)
  | _ + 1, [] => ([], none)
  | k + 1, '\\' :: r =>
    match e.expand r with
    | .text cs rest =>
      let (more, stop) := e.expandAll k rest
      (cs ++ more, stop)
    | other         => ([], some other)
  | k + 1, c :: r =>
    let (more, stop) := e.expandAll k r
    (c :: more, stop)

/-- A text with its escapes expanded. -/
def Escapes.expandText (e : Escapes) (s : String) : List Char × Option Expansion :=
  e.expandAll (s.length + 1) s.toList

end Assay
