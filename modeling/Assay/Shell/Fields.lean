import Assay.Shell.Pattern

/-!
# Shell — fields

What a word has become, and how it falls apart into fields. Only stretches that come from values are
looked at for separators; blanks among the separators count as one, and each of the others ends a
field of its own.

* `Fields.split`: the fields of an expanded word.
-/

namespace Assay.Shell

/-- A character of an expanded word. -/
inductive Glyph where
  /-- One that may have a meaning in a pattern if it is active. -/
  | char (c : Char) (isActive : Bool)
  /-- Nothing, but it was quoted. -/
  | quotes
  /-- Where one parameter ends and the next one begins. -/
  | cut
  deriving DecidableEq, Repr

/-- What of a stretch separates fields. -/
inductive Splitting where
  | never
  | atCuts
  | always
  deriving DecidableEq, Repr

structure Stretch where
  glyphs : List Glyph
  splitting : Splitting
  deriving DecidableEq, Repr

namespace Glyph

def ofText (s : String) (isActive : Bool) : List Glyph := s.toList.map (.char · isActive)

/-- The characters of some glyphs. -/
def text (gs : List Glyph) : String :=
  String.ofList (gs.filterMap fun
    | .char c _ => some c
    | _         => none)

/-- Glyphs as a pattern. -/
def pattern (gs : List Glyph) : Pattern :=
  gs.filterMap fun
    | .char c a => some ⟨c, a⟩
    | .cut      => some ⟨'\x00', false⟩
    | .quotes   => none

/-- Glyphs as a text that a pattern may cover. -/
def subject (gs : List Glyph) : List Char :=
  gs.map fun
    | .char c _ => c
    | _         => '\x00'

end Glyph

namespace Stretch

def glyphsOf (ss : List Stretch) : List Glyph := ss.flatMap (·.glyphs)

/-- The characters of some stretches. -/
def text (ss : List Stretch) : String := Glyph.text (glyphsOf ss)

end Stretch

/-- Fields under way. -/
structure Fields where
  /-- Newest first, as is the field under way. -/
  complete : List (List Glyph) := []
  current : List Glyph := []
  /-- Whether blanks that separate have just been passed. -/
  isPast : Bool := false
  /-- How many more fields there may be, the one under way included; none if that does not matter. -/
  room : Option Nat := none
  /-- How much of the last field counts if only separators follow. -/
  kept : Option Nat := none
  splitting : Splitting := .never

namespace Fields

/-- Ends the field under way. -/
def close (f : Fields) : Fields :=
  { f with complete := f.current.reverse :: f.complete, current := [] }

def push (f : Fields) (g : Glyph) : Fields := { f with current := g :: f.current }

/-- Whether a glyph separates fields, and whether it is then blank. -/
def kind (separators : String) (s : Splitting) : Glyph → Bool × Bool
  | .cut      => (true, true)
  | .quotes   => (false, false)
  | .char c _ =>
    if s = .always && separators.toList.contains c then (true, " \t\n".toList.contains c)
    else (false, false)

/-- Takes a glyph of a stretch that may fall apart; `counts` says whether blanks count as one. -/
def take (separators : String) (counts : Bool) (f : Fields) (g : Glyph) : Fields :=
  let (separates, isBlank) := kind separators f.splitting g
  match f.room with
  | some 0 =>
    if isBlank then { f with kept := f.kept.or (some f.current.length) }.push g
    else
      let kept := if separates && f.isPast then f.kept else none
      { f with kept := kept, isPast := false }.push g
  | room   =>
    if f.isPast && separates then { f with isPast := isBlank }
    else if separates then
      let f := if counts then { f with isPast := isBlank } else f
      if f.current.isEmpty && f.isPast then { f with isPast := false }
      else if room = some 1 then { f with room := some 0, kept := some f.current.length }.push g
      else { f with room := room.map (· - 1) }.close
    else { f with isPast := false }.push g

/-- Takes a stretch. -/
def takeStretch (separators : String) (f : Fields) (s : Stretch) : Fields :=
  if s.splitting = .never then { f with current := s.glyphs.reverse ++ f.current }
  else
    let counts := s.splitting = .always && f.splitting != .atCuts
    s.glyphs.foldl (take separators counts) { f with splitting := s.splitting, isPast := false }

/-- All fields; the one under way is one if anything is in it. -/
def finish (f : Fields) : List (List Glyph) :=
  let f :=
    match f.kept with
    | some n => { f with current := f.current.drop (f.current.length - n) }
    | none   => f
  let f := if f.current.isEmpty && f.splitting != .atCuts then f else f.close
  f.complete.reverse

/-- The fields of some stretches, at most as many as there is room for. -/
def split (separators : String) (room : Option Nat) (ss : List Stretch) : List (List Glyph) :=
  (ss.foldl (takeStretch separators) { room := room }).finish

end Fields

end Assay.Shell
