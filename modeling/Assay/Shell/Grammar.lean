import Assay.Shell.Source

/-!
# Shell — reading commands

A script is read one command line after the other; a compound command counts as one line however
many it covers. Words are cut where they are needed, for what is a word of the language or an
abbreviation depends on where it stands.

* `next`: the first command of a script and what is left of it.
-/

namespace Assay.Shell

namespace Reading

/-! ### Pieces of words -/

/-- What ends a piece of text. -/
inductive Ending where
  /-- The end of a word. -/
  | word
  | quote
  | brace
  /-- Two closing brackets, behind those that close so many open ones. -/
  | sum (depth : Nat)
  /-- The end of everything. -/
  | text
  deriving DecidableEq, Repr

def unterminated : String := "Unterminated quoted string"

/-- The characters that end a word outside of quotes. -/
def endsWord (c : Char) : Bool := " \t\n;&|<>()".toList.contains c || c == aliasEnd

/-- Characters that stand for themselves wherever they are. -/
def isOrdinary (c : Char) : Bool := c.isAlphanum || "_-./:,+%@=^~?*[]!#".toList.contains c

/-- Characters that a backslash keeps from their meaning between double quotes. -/
def isGuarded (c : Char) : Bool := "$\\\x60".toList.contains c

/-- The text in front of the mark that ends an output, its guards taken off, and the rest. -/
def backquoted (quoted : Bool) : List Char → Option (List Char × List Char)
  | []               => none
  | '\\' :: '\n' :: r => backquoted quoted r
  | '\\' :: c :: r   =>
    let kept := if isGuarded c || (quoted && c = '"') then [c] else ['\\', c]
    (backquoted quoted r).map fun t => (kept ++ t.1, t.2)
  | c :: r           =>
    if c = '\x60' then some ([], r) else (backquoted quoted r).map fun t => (c :: t.1, t.2)

/-- What stands in braces behind a dollar sign, up to the word: a name, the change, whether there is a
word, and the rest. -/
def braced (cs : List Char) : String × Change × Bool × List Char :=
  let bad (r : List Char) : String × Change × Bool × List Char := ("", .unknown, true, r)
  let after (name : List Char) (r : List Char) : String × Change × Bool × List Char :=
    let name := String.ofList name
    let op (orEmpty : Bool) : List Char → String × Change × Bool × List Char
      | '\x7d' :: r => (name, .keep, orEmpty, r)
      | '-' :: r    => (name, .otherwise orEmpty, true, r)
      | '=' :: r    => (name, .assign orEmpty, true, r)
      | '?' :: r    => (name, .require orEmpty, true, r)
      | '+' :: r    => (name, .instead orEmpty, true, r)
      | r           => bad (r.drop 1)
    match r with
    | ':' :: r        => op true r
    | '%' :: '%' :: r => (name, .trim true true, true, r)
    | '%' :: r        => (name, .trim true false, true, r)
    | '#' :: '#' :: r => (name, .trim false true, true, r)
    | '#' :: r        => (name, .trim false false, true, r)
    | r               => op false r
  let length (name r : List Char) : String × Change × Bool × List Char :=
    match r with
    | '\x7d' :: r => (String.ofList name, .length, false, r)
    | r           => bad r
  match cs with
  | [] => bad []
  | c :: r =>
    if isNameStart c then after (cs.takeWhile isNamePart) (cs.dropWhile isNamePart)
    else if c.isDigit then after (cs.takeWhile Char.isDigit) (cs.dropWhile Char.isDigit)
    else if c = '\x7d' then bad cs
    else if c = '#' then
      match r with
      | d :: r' =>
        if isNameStart d then length (r.takeWhile isNamePart) (r.dropWhile isNamePart)
        else if d.isDigit then length (r.takeWhile Char.isDigit) (r.dropWhile Char.isDigit)
        else if d ≠ '\x7d' ∧ r'.head? = some '\x7d' ∧ isSpecial d then length [d] r'
        else after ['#'] r
      | [] => after ['#'] r
    else if isSpecial c then after [c] r
    else bad r

/-- Whether the word of a change stands outside of quotes even between them. -/
def isPattern : Change → Bool
  | .trim _ _ => true
  | _         => false

/-! ### Tokens -/

/-- What is looked for when a token is read. -/
structure Looking where
  /-- Whether line ends are passed over. -/
  pastLines : Bool := false
  keywords : Bool := false
  aliases : Bool := false

/-- The signs that separate commands, the longer ones first. -/
def signs : List String := ["&&", "||", ";;", "&", "|", ";", "(", ")"]

/-- The redirection at the beginning of a text that starts with its sign, and the rest. -/
def redirection (fd : Option Nat) (cs : List Char) : Opened × List Char :=
  match cs with
  | '>' :: '>' :: r        => (.direction (fd.getD 1) .append, r)
  | '>' :: '|' :: r        => (.direction (fd.getD 1) (.target true), r)
  | '>' :: '&' :: r        => (.direction (fd.getD 1) (.same false), r)
  | '<' :: '<' :: '-' :: r => (.lines (fd.getD 0) true, r)
  | '<' :: '<' :: r        => (.lines (fd.getD 0) false, r)
  | '<' :: '&' :: r        => (.direction (fd.getD 0) (.same true), r)
  | '<' :: '>' :: r        => (.direction (fd.getD 0) .update, r)
  | '<' :: r               => (.direction (fd.getD 0) .source, r)
  | r                      => (.direction (fd.getD 1) (.target false), r.drop 1)

/-- Reads characters that stand for themselves up to a quote or, without one, up to the end of the
text; says whether there was a quote. -/
def literal (quote : Option Char) : Nat → List Char → Reading (List Char × Bool)
  | 0, cs     => pure (cs.reverse, false)
  | k + 1, cs => do
    match (← get).rest with
    | []     => pure (cs.reverse, false)
    | c :: r =>
      if quote = some c then
        skipTo r
        pure (cs.reverse, true)
      else
        if c = '\n' then skipLine r else skipTo r
        literal quote k (c :: cs)

/-- What is wrong with a text that ends too early. -/
def endless (quoted : Bool) : Reading String := do
  pure (if quoted && (← get).mark.isNone then unterminated else "Missing '\x7d'")

/-- The line of a command. -/
def lineOf : Command → Nat
  | .simple line _ _ _  => line
  | .group line _ _     => line
  | .inner line _ _     => line
  | .each line _ _ _    => line
  | .choice line _ _    => line
  | _                   => 1

/-- The word that a token is; a sign counts as its text. -/
def wordOf : Token → Reading Word
  | .word w _  => pure w
  | .keyword s => pure [.text s false]
  | .sign s    => pure [.text s false]
  | _          => pure []

mutual

/-- Reads text up to its ending. -/
def piece : Nat → Bool → Ending → Draft → Reading Draft
  | 0, _, _, d                   => pure d
  | k + 1, quoted, ending, d => do
    let s ← get
    match s.rest with
    | [] =>
      match ending with
      | .word | .text => pure d
      | .quote        => fail (← endless true)
      | .brace        => fail (← endless quoted)
      | .sum _        => fail "Missing '))'"
    | c :: r =>
      if isOrdinary c then
        skipTo (s.rest.dropWhile isOrdinary)
        piece k quoted ending (d.add (s.rest.takeWhile isOrdinary) quoted)
      else if c = aliasEnd then
        if ending = .word then pure d
        else
          leaveAlias r
          piece k quoted ending d
      else if c = '\\' then
        match r with
        | '\n' :: r =>
          skipLines 1 r
          piece k quoted ending d
        | e :: r    =>
          let isFree := !quoted || isGuarded e || (e = '"' && ending != .text) ||
            (e = '\x7d' && ending = .brace)
          skipTo r
          let d := d.add (if isFree then [e] else ['\\', e]) true
          piece k quoted ending { d with hasQuotes := true }
        | []        =>
          skipTo []
          piece k quoted ending { d.add ['\\'] true with hasQuotes := true }
      else if c = '\x27' && !quoted then
        skipTo r
        let (inner, isClosed) ← literal (some '\x27') (r.length + 1) []
        if !isClosed then fail (← endless true)
        piece k quoted ending (d.mark.add inner true)
      else if c = '"' then
        if quoted && ending = .quote then
          skipTo r
          pure d
        else if quoted && (ending = .text || ending matches .sum _) then
          skipTo r
          piece k quoted ending (d.add ['"'] true)
        else
          skipTo r
          let inner ← piece k true .quote {}
          let d :=
            match quoted, inner.parts with
            | false, [.value "@" .keep _ _] => d
            | _, _                          => d.mark
          piece k quoted ending ⟨inner.parts ++ d.parts, true⟩
      else if c = '$' && !s.isPlain then
        skipTo r
        let p ← dollar k quoted
        match p with
        | .text t q => piece k quoted ending (d.add t.toList q)
        | p         => piece k quoted ending (d.part p)
      else if c = '\x60' && !s.isPlain then
        match backquoted quoted r with
        | none            =>
          skipLines (r.count '\n') []
          fail "EOF in backquote substitution"
        | some (text, r') =>
          skipLines ((r.take (r.length - r'.length)).count '\n') r'
          let inside ← nested text (list k 2)
          piece k quoted ending (d.part (.output (inside.getD .nothing) quoted))
      else if ending = .brace && c = '\x7d' then
        skipTo r
        pure d
      else
        match ending with
        | .sum depth =>
          if c = '\n' then skipLine r else skipTo r
          if c = '(' then piece k quoted (.sum (depth + 1)) (d.add ['('] true)
          else if c = ')' then
            match depth, r with
            | 0, ')' :: r =>
              skipTo r
              pure d
            | _, _        => piece k quoted (.sum (depth - 1)) (d.add [')'] true)
          else piece k quoted ending (d.add [c] true)
        | .word =>
          if endsWord c then pure d
          else
            skipTo r
            piece k quoted ending (d.add [c] quoted)
        | _ =>
          if c = '\n' then skipLine r else skipTo r
          piece k quoted ending (d.add [c] quoted)

/-- Reads what follows a dollar sign. A sign in front of anything else stands for itself. -/
def dollar : Nat → Bool → Reading Part
  | 0, quoted     => pure (.text "$" quoted)
  | k + 1, quoted => do
    let s ← get
    match s.rest with
    | '(' :: '(' :: r =>
      skipTo r
      let d ← piece k true (.sum 0) {}
      pure (.number d.word quoted)
    | '(' :: r        =>
      set { s with rest := r, awaited := [], pushed := none, mark := none }
      let c ← list k 2
      let t ← token k {}
      if !isSign t ")" then expected t "\")\""
      collect k
      modify fun t => { t with awaited := s.awaited, pushed := s.pushed, mark := s.mark }
      pure (.output (c.getD .nothing) quoted)
    | '\x7b' :: r     =>
      let (name, change, hasWord, r) := braced r
      skipTo r
      if hasWord then
        let d ← piece k (quoted && !isPattern change) .brace {}
        pure (.value name change d.word quoted)
      else pure (.value name change [] quoted)
    | c :: r          =>
      if isNameStart c then
        skipTo (r.dropWhile isNamePart)
        pure (.value (String.ofList (c :: r.takeWhile isNamePart)) .keep [] quoted)
      else if isSpecial c then
        skipTo r
        pure (.value (String.singleton c) .keep [] quoted)
      else pure (.text "$" quoted)
    | []              => pure (.text "$" quoted)

/-- Reads commands from a text of their own, whose lines are counted anew. -/
def nested (text : List Char) (read : Reading (Option Command)) : Reading (Option Command) := do
  let s ← get
  set { s with rest := text, line := 1, active := [], awaited := [], pushed := none, mark := none }
  let c ← read
  modify fun t => { s with texts := t.texts, nextText := t.nextText }
  pure c

/-- Reads the lines that are awaited. -/
def collect : Nat → Reading Unit
  | 0     => pure ()
  | k + 1 => do
    let s ← get
    match s.awaited with
    | []      => pure ()
    | a :: as =>
      set { s with
        active := [], awaited := [], pushed := none, mark := some a.mark, behind := [] }
      seekMark
      let word : Word ←
        if a.isQuoted then do
          let (body, _) ← literal none (s.rest.length + 1) []
          pure [.text (String.ofList body) true]
        else do pure (← piece k true .text {}).mark.word
      modify fun t =>
        { s with
          rest := t.behind, awaited := as, line := t.line
          texts := (a.id, word) :: t.texts, nextText := t.nextText }
      collect k

/-- Reads the next token without asking what its words mean. -/
def raw : Nat → Reading Token
  | 0     => pure .finish
  | k + 1 => do
    let s ← get
    match s.pushed with
    | some t =>
      set { s with pushed := none }
      pure t
    | none   =>
      match s.rest with
      | []               => pure .finish
      | '\\' :: '\n' :: r =>
        skipLines 1 r
        raw k
      | c :: r           =>
        if c = ' ' || c = '\t' then
          skipTo r
          raw k
        else if c = aliasEnd then
          leaveAlias r
          raw k
        else if c = '#' then
          let (comment, rest) := r.span (· ≠ '\n')
          (comment.filter (· = aliasEnd)).forM fun _ => leaveAlias rest
          skipTo rest
          raw k
        else if c = '\n' then
          skipLines 1 r
          pure .newline
        else
          match signs.find? fun t => t.toList.isPrefixOf s.rest with
          | some t =>
            skipTo (s.rest.drop t.length)
            pure (.sign t)
          | none   =>
            let d ← piece k false .word {}
            let rest := (← get).rest
            let isRedirect := rest.head? = some '<' || rest.head? = some '>'
            match isRedirect, d.bare.map String.toList with
            | true, some []  =>
              let (r, rest) := redirection none rest
              skipTo rest
              pure (.redirect r)
            | true, some [n] =>
              if n.isDigit then
                let (r, rest) := redirection (some (n.toNat - '0'.toNat)) rest
                skipTo rest
                pure (.redirect r)
              else pure (.word d.word d.bare)
            | _, _           => pure (.word d.word d.bare)

/-- Reads the next token. -/
def token : Nat → Looking → Reading Token
  | 0, _     => pure .finish
  | k + 1, l => do
    modify fun s => { s with spreads := false }
    let t ← raw k
    match t with
    | .newline =>
      if l.pastLines then
        collect k
        token k l
      else pure t
    | .word _ (some text) =>
      if l.keywords && reserved.contains text then pure (.keyword text)
      else
        let s ← get
        match (if l.aliases || s.spreads then s.aliases.lookup text else none) with
        | none       => pure t
        | some value =>
          if s.active.any (·.1 == text) then pure t
          else
            let spreads := value.endsWith " " || value.endsWith "\t"
            set { s with
              rest := value.toList ++ aliasEnd :: s.rest
              active := (text, spreads) :: s.active }
            token k l
    | t => pure t

/-- Reads commands one after the other. With `mode` one, the line ends with them; with zero there must
be one at least; with two there may be none. -/
def list : Nat → Nat → Reading (Option Command)
  | 0, _        => pure none
  | k + 1, mode => listRest k mode none (mode = 2)

def listRest : Nat → Nat → Option Command → Bool → Reading (Option Command)
  | 0, _, c, _               => pure c
  | k + 1, mode, c, mayEnd => do
    let t ← token k ⟨mode ≠ 1, true, true⟩
    match t with
    | .newline =>
      collect k
      pure c
    | .finish  =>
      collect k
      push .finish
      pure c
    | t        =>
      push t
      if mode ≠ 1 && mayEnd && endsList t then pure c
      else
        let d ← andOr k
        let t ← token k {}
        let d :=
          if isSign t "&" then
            match d with
            | .pipe line members _ => .pipe line members true
            | .inner line d rs     => .apart line (.inner line d rs) []
            | d                    => .apart (lineOf d) d []
          else d
        let c := some (c.elim d fun c => .seq c d)
        match t with
        | .newline | .finish =>
          push t
          listRest k mode c true
        | .sign "&" | .sign ";" => listRest k mode c true
        | t =>
          if mode = 1 then unexpected t
          push t
          pure c

/-- Reads commands connected by what came out of the one in front. -/
def andOr : Nat → Reading Command
  | 0     => pure .nothing
  | k + 1 => do
    let c ← pipeline k
    andOrRest k c

def andOrRest : Nat → Command → Reading Command
  | 0, c     => pure c
  | k + 1, c => do
    let t ← token k {}
    if isSign t "&&" || isSign t "||" then
      let u ← token k ⟨true, true, true⟩
      push u
      let d ← pipeline k
      andOrRest k (.ifOk (isSign t "&&") c d)
    else
      push t
      pure c

/-- Reads commands of which each reads what the one in front prints. -/
def pipeline : Nat → Reading Command
  | 0     => pure .nothing
  | k + 1 => do
    let t ← token k {}
    let isNegated := isKeyword t "!"
    if isNegated then
      let t ← token k ⟨false, true, true⟩
      push t
    else push t
    let line := (← get).line
    let c ← command k
    let cs ← pipelineRest k [c]
    let c :=
      match cs with
      | [c] => c
      | cs  => .pipe line cs false
    pure (if isNegated then .negated c else c)

def pipelineRest : Nat → List Command → Reading (List Command)
  | 0, cs     => pure cs
  | k + 1, cs => do
    let t ← token k {}
    if isSign t "|" then
      let u ← token k ⟨true, true, true⟩
      push u
      let c ← command k
      pipelineRest k (cs ++ [c])
    else
      push t
      pure cs

/-- Reads a word of the language. -/
def expect : Nat → String → Looking → Reading Unit
  | 0, _, _        => pure ()
  | k + 1, word, l => do
    let t ← token k l
    if !isKeyword t word then expected t ("\"" ++ word ++ "\"")

/-- Reads what follows a condition: what to do if it holds, and what if not. -/
def branches : Nat → Command → Reading Command
  | 0, test     => pure test
  | k + 1, test => do
    expect k "then" {}
    let yes ← list k 0
    let t ← token k {}
    if isKeyword t "elif" then
      let next ← list k 0
      let no ← branches k (next.getD .nothing)
      pure (.cond test (yes.getD .nothing) (some no))
    else if isKeyword t "else" then
      let no ← list k 0
      expect k "fi" {}
      pure (.cond test (yes.getD .nothing) (some (no.getD .nothing)))
    else
      push t
      expect k "fi" {}
      pure (.cond test (yes.getD .nothing) none)

/-- Reads the words of a loop, and the token behind them. -/
def loopWords : Nat → List Word → Reading (List Word × Token)
  | 0, ws     => pure (ws, .finish)
  | k + 1, ws => do
    match ← token k {} with
    | .word w _ => loopWords k (ws ++ [w])
    | t         => pure (ws, t)

/-- Reads the patterns of a case, the first of which has been read, and the token behind them. -/
def patterns : Nat → List Word → Reading (List Word × Token)
  | 0, ws     => pure (ws, .finish)
  | k + 1, ws => do
    let t ← token k {}
    if isSign t "|" then
      let w ← wordOf (← token k {})
      patterns k (ws ++ [w])
    else pure (ws, t)

/-- Reads the cases of a choice. -/
def cases : Nat → List (List Word × Command) → Reading (List (List Word × Command))
  | 0, cs     => pure cs
  | k + 1, cs => do
    let t ← token k ⟨true, true, false⟩
    if isKeyword t "esac" then pure cs
    else
      let t ← if isSign t "(" then token k {} else pure t
      let (ps, t) ← patterns k [← wordOf t]
      if !isSign t ")" then expected t "\")\""
      let body ← list k 2
      let cs := cs ++ [(ps, body.getD .nothing)]
      let t ← token k ⟨true, true, false⟩
      if isKeyword t "esac" then pure cs
      else if isSign t ";;" then cases k cs
      else expected t "\";;\""

/-- Reads redirections, as many as there are. -/
def redirects : Nat → List Redirect → Reading (List Redirect)
  | 0, rs     => pure rs
  | k + 1, rs => do
    match ← token k ⟨false, true, true⟩ with
    | .redirect r =>
      let r ← goal k r
      redirects k (rs ++ [r])
    | t           =>
      push t
      pure rs

/-- Reads the word of a redirection. -/
def goal : Nat → Opened → Reading Redirect
  | 0, _     => pure (.fromText 0 0)
  | k + 1, r => do
    modify fun s => { s with isPlain := r matches .lines _ _ }
    let t ← token k {}
    modify fun s => { s with isPlain := false }
    match t with
    | .word w bare =>
      match r with
      | .lines fd withoutTabs =>
        let s ← get
        let next : Awaited := ⟨s.nextText, ⟨unquoted w, withoutTabs⟩, bare.isNone⟩
        set { s with nextText := s.nextText + 1, awaited := s.awaited ++ [next] }
        pure (.fromText fd s.nextText)
      | .direction fd d       => pure (.toWord fd d w)
    | t            => unexpected t

/-- Reads a single command, simple or compound. -/
def command : Nat → Reading Command
  | 0     => pure .nothing
  | k + 1 => do
    let line := (← get).line
    let redirected (c : Command) : Reading Command := do
      match ← redirects k [] with
      | [] => pure c
      | rs => pure (.group line c rs)
    let t ← token k {}
    match t with
    | .word _ _ | .redirect _ =>
      push t
      simple k
    | .sign "(" =>
      let c ← list k 0
      let t ← token k {}
      if !isSign t ")" then expected t "\")\""
      let rs ← redirects k []
      pure (.inner line (c.getD .nothing) rs)
    | .keyword "if" =>
      let test ← list k 0
      redirected (← branches k (test.getD .nothing))
    | .keyword "while" =>
      let test ← list k 0
      let body ← doBody k {}
      redirected (.loop true (test.getD .nothing) body)
    | .keyword "until" =>
      let test ← list k 0
      let body ← doBody k {}
      redirected (.loop false (test.getD .nothing) body)
    | .keyword "for" =>
      match ← token k {} with
      | .word _ (some name) =>
        if !isName name then fail "Bad for loop variable"
        let t ← token k ⟨true, true, true⟩
        if isKeyword t "in" then
          let (ws, t) ← loopWords k []
          if !(t matches .newline) && !isSign t ";" then unexpected t
          let body ← doBody k ⟨true, true, true⟩
          redirected (.each line name ws body)
        else
          if !isSign t ";" then push t
          let body ← doBody k ⟨true, true, true⟩
          redirected (.each line name [[.value "@" .keep [] true]] body)
      | _ => fail "Bad for loop variable"
    | .keyword "case" =>
      match ← token k {} with
      | .word w _ =>
        let t ← token k ⟨true, true, true⟩
        if !isKeyword t "in" then expected t "\"in\""
        redirected (.choice line w (← cases k []))
      | t         => expected t "word"
    | .keyword "\x7b" =>
      let c ← list k 0
      expect k "\x7d" {}
      redirected (c.getD .nothing)
    | t => unexpected t

/-- Reads what a loop does each time. -/
def doBody : Nat → Looking → Reading Command
  | 0, _     => pure .nothing
  | k + 1, l => do
    expect k "do" l
    let c ← list k 0
    expect k "done" {}
    pure (c.getD .nothing)

/-- Reads a simple command, or a function if brackets follow its name. -/
def simple : Nat → Reading Command
  | 0     => pure .nothing
  | k + 1 => do
    let line := (← get).line
    simpleRest k line [] [] [] none

def simpleRest : Nat → Nat → List Word → List Word → List Redirect → Option String →
    Reading Command
  | 0, line, as, ws, rs, _          => pure (.simple line as ws rs)
  | k + 1, line, as, ws, rs, name => do
    match ← token k ⟨false, false, ws.isEmpty⟩ with
    | .word w bare =>
      if ws.isEmpty && (assignment? w).isSome then simpleRest k line (as ++ [w]) ws rs none
      else simpleRest k line as (ws ++ [w]) rs bare
    | .redirect r  =>
      let r ← goal k r
      simpleRest k line as ws (rs ++ [r]) name
    | .sign "("    =>
      if ws.length = 1 && as.isEmpty && rs.isEmpty then
        let t ← token k {}
        if !isSign t ")" then expected t "\")\""
        match name with
        | some name =>
          if !isName name || specialNames.contains name then fail "Bad function name"
          let t ← token k ⟨true, true, true⟩
          push t
          let line := (← get).line
          pure (.define line name (← command k))
        | none      => fail "Bad function name"
      else
        push (.sign "(")
        pure (.simple line as ws rs)
    | t            =>
      push t
      pure (.simple line as ws rs)

end

end Reading

/-- What stands at the front of a script. -/
structure Front where
  /-- The first command; none at the end of the script. An empty line is a command that does
  nothing. -/
  command : Option Command
  /-- Whether nothing stands behind it, not even a line end. -/
  isLast : Bool
  source : Source

/-- How deep readers may call one another. -/
def readingLimit : Nat := 1000000000

/-- The first command line of a script. -/
def next (s : Source) : Except Complaint Front := do
  let (c, s) ← (Reading.list readingLimit 1).run { s with pushed := none }
  let isLast :=
    match s.pushed with
    | some .finish => true
    | _            => false
  match c with
  | some c => pure ⟨some c, isLast, s⟩
  | none   => pure ⟨if isLast then none else some .nothing, isLast, s⟩

end Assay.Shell
