import Assay.Shell.Arithmetic
import Assay.Shell.Fields

/-!
# Shell — what words become

Values, outputs and numbers are put in where a word asks for them. A word of a command falls apart
into fields and stands for the paths that it covers as a pattern; other words stay in one piece.

* `Expansion.fields`, `Expansion.text`, `Expansion.pattern`: a word as fields, text or pattern.
-/

namespace Assay.Shell.Expansion

/-- How a word is looked at. -/
structure Manner where
  /-- Whether it may become several fields. -/
  isWhole : Bool := false
  /-- Whether unquoted text falls apart too. -/
  isLoose : Bool := false
  /-- Whether a tilde in front stands for a directory, and one behind a colon too. -/
  tilde : Bool := true
  colons : Bool := false

/-- Runs a command and gives what it prints. -/
abbrev Listener := Command → Sh String

/-! ### Tildes -/

/-- The directory of a user. -/
def home? (s : State) (user : String) : Option String :=
  if user.isEmpty then s.value? "HOME"
  else if user = "root" then some "/root"
  else none

/-- Text of a word with its tildes replaced. `isLast` says whether nothing follows, `isFront` whether a
tilde may stand here. -/
def tildes (s : State) (colons isLast : Bool) : Nat → Bool → List Char → List Glyph
  | 0, _, cs             => cs.map (.char · true)
  | _, _, []             => []
  | k + 1, isFront, c :: r =>
    let plain : List Glyph := .char c true :: tildes s colons isLast k (colons && c = ':') r
    if isFront && c = '~' then
      let name := r.takeWhile fun d => d ≠ '/' && !(colons && d = ':')
      let rest := r.drop name.length
      if rest.isEmpty && !isLast then plain
      else
        match home? s (String.ofList name) with
        | some dir => Glyph.ofText dir false ++ tildes s colons isLast k false rest
        | none     => plain
    else plain

/-! ### Parameters -/

/-- The parameters with something between them. -/
def joined (params : List String) (between : List Glyph) (isActive : Bool) : List Glyph :=
  between.intercalate (params.map (Glyph.ofText · isActive))

/-- The value of a parameter. -/
def valueOf (s : State) (m : Manner) (name : String) (quoted : Bool) : Option (List Glyph) :=
  let number (n : Nat) : Option (List Glyph) := some (Glyph.ofText (toString n) false)
  let text (t : Option String) : Option (List Glyph) := t.map (Glyph.ofText · !quoted)
  match name with
  | "$" => number s.shellId
  | "?" => number s.status
  | "#" => number s.params.length
  | "!" => s.lastApart.bind number
  | "-" => text (some (String.ofList (State.optionOrder.filter s.has)))
  | "@" | "*" =>
    let separators := s.value? "IFS"
    let between : List Glyph :=
      if quoted && m.isWhole && name = "@" then [.cut]
      else if !quoted && m.isWhole then (if separators.isSome then [.cut] else [.char ' ' true])
      else
        match separators with
        | none   => [.char ' ' !quoted]
        | some t => (t.toList.take 1).map (.char · !quoted)
    some (joined s.params between !quoted)
  | name =>
    if name.toList.head?.any Char.isDigit then
      match name.toNat? with
      | some 0 => text (some s.zero)
      | some n => text s.params[n - 1]?
      | none   => none
    else text (s.value? name)

/-- A value as it stands in a word. -/
def valueStretch (s : State) (m : Manner) (name : String) (quoted : Bool) (gs : List Glyph) :
    List Stretch :=
  if !quoted then [⟨gs, .always⟩]
  else if m.isWhole && name = "@" then
    if s.params.isEmpty then [] else [⟨gs, .atCuts⟩]
  else [⟨gs, .never⟩]

/-- Says that a parameter has no value. -/
def missing {α : Type} (name : String) (word : Option String) (orEmpty : Bool) : Sh α :=
  Sh.fail (name ++ ": " ++
    match word with
    | some text => text
    | none      => "parameter not set" ++ (if orEmpty then " or null" else ""))

/-- Whether a parameter is there even if it has no value to give. -/
def isSpecialName (name : String) : Bool := name = "@" || name = "*"

/-! ### Words -/

/-- Output without the line ends behind it and without zero octets. -/
def trimmedOutput (text : String) : String :=
  String.ofList ((text.toList.filter (· ≠ '\x00')).reverse.dropWhile (· = '\n')).reverse

mutual

/-- A part of a word in place; `isLast` says whether nothing follows. -/
def part (listen : Listener) (m : Manner) (isLast : Bool) : Part → Sh (List Stretch)
  | .text t true => pure [⟨if t.isEmpty then [.quotes] else Glyph.ofText t false, .never⟩]
  | .text t false => do
    let s ← get
    let gs := tildes s m.colons isLast (t.length + 1) m.tilde t.toList
    pure [⟨gs, if m.isLoose then .always else .never⟩]
  | .value name change word quoted => do
    let s ← get
    let found := valueOf s m name quoted
    /- The value, unless it is empty and that counts as none. -/
    let given (orEmpty : Bool) := found.filter fun gs => !(orEmpty && gs.isEmpty)
    let shown (gs : List Glyph) : Sh (List Stretch) := pure (valueStretch s m name quoted gs)
    let inner : Manner := { m with isLoose := !quoted, tilde := !quoted, colons := false }
    let plain : Manner := {}
    let unset : Sh (List Stretch) :=
      if s.has 'u' && !isSpecialName name then missing name none false else pure []
    match change with
    | .unknown           => Sh.fail "Bad substitution"
    | .keep              => found.elim unset shown
    | .length            =>
      match found with
      | none    => do
        let _ ← unset
        pure [⟨[.char '0' false], if quoted then .never else .always⟩]
      | some gs =>
        pure [⟨Glyph.ofText (toString gs.length) false, if quoted then .never else .always⟩]
    | .otherwise orEmpty =>
      match given orEmpty with
      | some gs => shown gs
      | none    => parts listen inner word
    | .instead orEmpty   =>
      match given orEmpty with
      | some _ => parts listen inner word
      | none   => pure []
    | .assign orEmpty    =>
      match given orEmpty with
      | some gs => shown gs
      | none    => do
        let ss ← parts listen plain word
        Sh.setVar name (Stretch.text ss)
        let s ← get
        pure ((valueOf s m name quoted).elim [] fun gs => valueStretch s m name quoted gs)
    | .require orEmpty   =>
      match given orEmpty with
      | some gs => shown gs
      | none    => do
        let ss ← parts listen plain word
        missing name (if word.isEmpty then none else some (Stretch.text ss)) orEmpty
    | .trim atEnd longest =>
      match found with
      | none    => unset
      | some gs => do
        let ss ← parts listen plain word
        let n := (Glyph.pattern (Stretch.glyphsOf ss)).reach atEnd longest (Glyph.subject gs)
        shown (if atEnd then gs.take (gs.length - n) else gs.drop n)
  | .output c quoted => do
    let text ← listen c
    pure [⟨Glyph.ofText (trimmedOutput text) !quoted, if quoted then .never else .always⟩]
  | .number expression quoted => do
    let ss ← parts listen { isWhole := false, tilde := false } expression
    let n ← Arithmetic.value (Stretch.text ss)
    pure [⟨Glyph.ofText (toString n) false, if quoted then .never else .always⟩]

/-- The parts of a word in place. -/
def parts (listen : Listener) (m : Manner) : List Part → Sh (List Stretch)
  | []     => pure []
  | p :: r => do
    let ss ← part listen m r.isEmpty p
    let more ← parts listen { m with tilde := false } r
    pure (ss ++ more)

end

/-- A word as text in one piece. -/
def text (listen : Listener) (m : Manner) (w : Word) : Sh String := do
  pure (Stretch.text (← parts listen m w))

/-- A word as a pattern. -/
def pattern (listen : Listener) (w : Word) : Sh Pattern := do
  pure (Glyph.pattern (Stretch.glyphsOf (← parts listen {} w)))

/-- The paths that a field covers, or its text if it covers none. -/
def pathsOf (gs : List Glyph) : Sh (List String) := do
  let p := Glyph.pattern gs
  let s ← get
  if s.has 'f' || !p.isWild then pure [Glyph.text gs]
  else
    let found ← Sh.code (Code.look fun id sys => p.paths (sys.filesOf id))
    pure (if found.isEmpty then [Glyph.text gs] else found)

/-- A word as fields. -/
def fields (listen : Listener) (w : Word) : Sh (List String) := do
  let ss ← parts listen { isWhole := true } w
  let s ← get
  let found ← (Fields.split s.separators none ss).mapM pathsOf
  pure found.flatten

end Assay.Shell.Expansion
