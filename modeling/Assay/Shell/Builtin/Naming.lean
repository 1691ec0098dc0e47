import Assay.Shell.Builtin.Basic

/-!
# Shell — parts that deal with names

Parameters and their properties, functions, abbreviations and where programs are found.

* `Naming.mark`, `Naming.unset`, `Naming.localize`, `Naming.makeAlias`, `Naming.type`, …
-/

namespace Assay.Shell.Builtin.Naming

/-! ### Parameters -/

/-- Names in alphabetical order, and their values. -/
def sorted (s : State) (shows : Variable → Bool) : List (String × Variable) :=
  (s.values.filter fun v => shows v.2).mergeSort fun a b => decide (a.1 ≤ b.1)

/-- Names and values as a shell reads them. -/
def listing (front : String) (entries : List (String × Variable)) : String :=
  String.join (entries.map fun (name, v) =>
    front ++ name ++ (v.value.elim "" fun t => "=" ++ quoted t) ++ "\n")

/-- The name and the value that an argument gives it. -/
def cutAssignment (a : String) : String × Option String :=
  let name := a.toList.takeWhile (· ≠ '=')
  let rest := a.toList.drop name.length
  (String.ofList name, if rest.isEmpty then none else some (String.ofList (rest.drop 1)))

/-- Gives names properties, and values if there are any. -/
def mark (exports locks : Bool) : Part := fun part args => do
  let (letters, names) ← options "p" args
  let s ← get
  if !letters.isEmpty || names.isEmpty then
    say (listing (part ++ " ") (sorted s fun v =>
      if exports then v.isExported else v.isReadonly))
  else
    names.forM fun a => do
      let (name, value) := cutAssignment a
      let s ← get
      match value, s.values.lookup name with
      | none, some v =>
        set (s.put name { v with
          isExported := v.isExported || exports, isReadonly := v.isReadonly || locks })
      | value, _     => Sh.assign name value exports locks
    done

/-- Takes names away. -/
def unset : Part := fun _ args => do
  let (letters, names) ← options "vf" args
  names.forM fun name =>
    if letters.getLast?.any (·.1 = 'f') then
      modify fun s => { s with functions := s.functions.filter (·.1 != name) }
    else Sh.assign name none false false
  done

/-- Keeps what a name stands for until the function is through; a hyphen stands for the options. -/
def hide (name : String) : Sh Unit :=
  modify fun s =>
    match s.hidden with
    | []        => s
    | top :: up =>
      if top.any (·.1 == name) then s
      else
        let old :=
          if name = "-" then some ⟨some (String.ofList s.options), false, false⟩
          else s.values.lookup name
        { s with hidden := ((name, old) :: top) :: up }

/-- Gives a name a value that lasts as long as the function. -/
def hideAndAssign (exports : Bool) (a : String) : Sh Unit := do
  let (name, value) := cutAssignment a
  if a = "-" then hide a
  else
    if !isName name && value.isNone then Sh.fail (name ++ ": bad variable name")
    hide name
    match value with
    | none   => pure ()
    | some v => Sh.assign name (some v) exports false

def localize : Part := fun _ args => do
  if (← get).depth = 0 then Sh.fail "not in a function"
  args.forM (hideAndAssign false)
  done

/-- Takes parameters from the front. -/
def shift : Part := fun _ args => do
  let n ← args.head?.elim (pure 1) Sh.number
  let s ← get
  if s.params.length < n then Sh.fail "can't shift that many"
  set { s with params := s.params.drop n, optionIndex := 1, optionPlace := none }
  done

/-! ### Options -/

/-- The options in their order, with their letters. -/
def optionNames : List (String × Option Char) :=
  [("errexit", some 'e'), ("noglob", some 'f'), ("ignoreeof", some 'I'), ("interactive", some 'i'),
   ("monitor", some 'm'), ("noexec", some 'n'), ("stdin", some 's'), ("xtrace", some 'x'),
   ("verbose", some 'v'), ("vi", some 'V'), ("emacs", some 'E'), ("noclobber", some 'C'),
   ("allexport", some 'a'), ("notify", some 'b'), ("nounset", some 'u'),
   ("privileged", some 'p'), ("nolog", none), ("debug", none)]

def optionLetters : List Char := optionNames.filterMap (·.2)

/-- Sets an option or takes it back. Two of them exclude each other. -/
def turn (isOn : Bool) (c : Char) : Sh Unit :=
  modify fun s =>
    let isLost (d : Char) : Bool := d = c || (isOn && [('V', 'E'), ('E', 'V')].contains (c, d))
    let others := s.options.filter (!isLost ·)
    { s with options := if isOn then c :: others else others }

/-- Sets an option by its letter or takes it back. -/
def turnLetter (isOn : Bool) (c : Char) : Sh Unit :=
  if optionLetters.contains c then turn isOn c
  else Sh.fail ("Illegal option -" ++ String.singleton c)

/-- Sets an option by its name or takes it back. -/
def turnName (isOn : Bool) (name : String) : Sh Unit :=
  match optionNames.lookup name with
  | some (some c) => turn isOn c
  | some none     => pure ()
  | none          => Sh.fail ("Illegal option -o " ++ name)

/-- Takes back what a shell without a terminal cannot do. -/
def dropJobControl : Sh Unit := do
  let s ← get
  if s.has 'm' && !s.isInner then
    Sh.warn "can't access tty; job control turned off"
    turn false 'm'

/-- All options and whether they are set; some have no letter. -/
def optionListing (isSet : Option Char → Bool) (isOn : Bool) : String :=
  let line (o : String × Option Char) : String :=
    if isOn then
      o.1 ++ String.ofList (List.replicate (16 - o.1.length) ' ') ++
        (if isSet o.2 then "on" else "off") ++ "\n"
    else "set " ++ (if isSet o.2 then "-" else "+") ++ "o " ++ o.1 ++ "\n"
  (if isOn then "Current option settings\n" else "") ++ String.join (optionNames.map line)

/-- Sets the options of one argument; `o` takes its name from the next one. Gives the arguments left. -/
def turnLetters (isOn : Bool) : List Char → List String → Sh (List String)
  | [], args       => pure args
  | 'o' :: r, args =>
    match args with
    | []           => do
      let s ← get
      Sh.tell 1 (optionListing (fun c => c.any s.has) isOn)
      turnLetters isOn r []
    | name :: args => do
      turnName isOn name
      turnLetters isOn r args
  | c :: r, args   => do
    turnLetter isOn c
    turnLetters isOn r args

def setParams (params : List String) : Sh Unit :=
  modify fun s => { s with params := params, optionIndex := 1, optionPlace := none }

/-- Sets options and parameters. -/
def setUpTo : Nat → List String → Sh Unit
  | 0, _          => pure ()
  | _, []         => pure ()
  | k + 1, a :: r =>
    match a.toList with
    | ['-']      => do
      turn false 'x'
      turn false 'v'
      if !r.isEmpty then setParams r
    | ['-', '-'] => setParams r
    | '-' :: cs  => do setUpTo k (← turnLetters true cs r)
    | '+' :: cs  => do setUpTo k (← turnLetters false cs r)
    | _          => setParams (a :: r)

def set : Part := fun _ args => do
  let s ← get
  if args.isEmpty then say (listing "" (sorted s fun v => v.value.isSome))
  else do
    setUpTo (args.length + 1) args
    dropJobControl
    done

/-! ### Reading of options -/

/-- Gives the next option of some arguments to a name, and its argument to another one. -/
def getopts : Part := fun _ args => do
  match args with
  | known :: name :: more => do
    let s ← get
    let words := if more.isEmpty then s.params else more
    let (index, place) :=
      if words.length + 1 < s.optionIndex then (1, none) else (s.optionIndex, s.optionPlace)
    let silent := known.toList.head? = some ':'
    /- The letters left in the argument under way. -/
    let rest : List Char :=
      match place with
      | some n => if index ≤ 1 then [] else ((words[index - 2]?).getD "").toList.drop n
      | none   => []
    let finish (result : Char) (index : Nat) (left : Option Nat) (status : Nat) : Sh Answer := do
      modify fun s => s.put "OPTIND"
        { ((s.values.lookup "OPTIND").getD {}) with value := some (toString index) }
      Sh.setVar name (String.singleton result)
      modify fun s => { s with optionIndex := index, optionPlace := left }
      pure ⟨status, ""⟩
    let start : Option (List Char × Nat) :=
      if !rest.isEmpty then some (rest, index)
      else
        match ((words[index - 1]?).getD "").toList with
        | ['-', '-']    => none
        | '-' :: c :: r => some (c :: r, index + 1)
        | _             => none
    match start with
    | none                  =>
      finish '?' (if rest.isEmpty && words[index - 1]? = some "--" then index + 1 else index) none 1
    | some ([], index)      => finish '?' index none 1
    | some (c :: r, index)  => do
      let left : Option Nat :=
        if r.isEmpty then some (((words[index - 2]?).getD "").length)
        else some (((words[index - 2]?).getD "").length - r.length)
      let letters := known.toList
      let isKnown := c ≠ ':' && letters.contains c
      if !isKnown then do
        if silent then Sh.setVar "OPTARG" (String.singleton c)
        else do
          Sh.tell 2 ("Illegal option -" ++ String.singleton c ++ "\n")
          Sh.assign "OPTARG" none false false
        finish '?' index left 0
      else if ((letters.dropWhile (· ≠ c)).drop 1).head? = some ':' then
        if !r.isEmpty then do
          Sh.setVar "OPTARG" (String.ofList r)
          finish c index none 0
        else
          match words[index - 1]? with
          | some a => do
            Sh.setVar "OPTARG" a
            finish c (index + 1) none 0
          | none   => do
            if silent then do
              Sh.setVar "OPTARG" (String.singleton c)
              finish ':' index none 0
            else do
              Sh.tell 2 ("No arg for -" ++ String.singleton c ++ " option\n")
              Sh.assign "OPTARG" none false false
              finish '?' index none 0
      else do
        Sh.setVar "OPTARG" ""
        finish c index left 0
  | _ => Sh.fail "Usage: getopts optstring var [arg...]"

/-! ### Abbreviations -/

def aliasLine (a : String × String) : String := a.1 ++ "=" ++ quoted a.2 ++ "\n"

/-- Makes or shows abbreviations. -/
def makeAlias : Part := fun _ args => do
  let s ← get
  if args.isEmpty then say (String.join ((inTableOrder 39 s.aliases).map aliasLine))
  else
    let step (acc : Answer) (a : String) : Sh Answer := do
      /- A sign in front does not count. -/
      let name := String.ofList (a.toList.take 1 ++ (a.toList.drop 1).takeWhile (· ≠ '='))
      let rest := a.toList.drop name.length
      let s ← get
      if rest.isEmpty then
        match s.aliases.lookup a with
        | some v => pure { acc with text := acc.text ++ aliasLine (a, v) }
        | none   => do
          Sh.tell 2 ("alias: " ++ a ++ " not found\n")
          pure { acc with status := 1 }
      else do
        let value := String.ofList (rest.drop 1)
        let isOld := s.aliases.any (·.1 == name)
        MonadStateOf.set { s with
          aliases :=
            if isOld then
              s.aliases.map fun (b : String × String) => if b.1 == name then (name, value) else b
            else s.aliases ++ [(name, value)] }
        pure acc
    args.foldlM step {}

def dropAlias : Part := fun _ args => do
  let (letters, names) ← options "a" args
  if !letters.isEmpty then
    modify fun s => { s with aliases := [] }
    done
  else
    let step (acc : Answer) (name : String) : Sh Answer := do
      let s ← get
      if s.aliases.any (·.1 == name) then do
        MonadStateOf.set { s with aliases := s.aliases.filter fun a => a.1 != name }
        pure acc
      else do
        Sh.tell 2 ("unalias: " ++ name ++ " not found\n")
        pure { acc with status := 1 }
    names.foldlM step {}

/-! ### Meanings -/

/-- Says what a name stands for, in words or as briefly as can be. -/
def describe (verbose : Bool) (path : Option String) (name : String) : Sh Answer := do
  let s ← get
  let shown (words brief : String) : Sh Answer :=
    say (if verbose then name ++ words ++ "\n" else brief ++ "\n")
  if reserved.contains name then shown " is a shell keyword" name
  else
    match s.aliases.lookup name with
    | some v => shown (" is an alias for " ++ v) ("alias " ++ name ++ "=" ++ quoted v)
    | none   =>
      let isTracked := path.isNone && s.found.any (·.1 == name)
      match ← Lookup.find name true false path with
      | .function _ => shown " is a shell function" name
      | .builtin    =>
        shown (if Lookup.isSpecial name then " is a special shell builtin"
          else " is a shell builtin") name
      | .program p  => do
        let isThere ← Sh.code (Code.look fun id sys =>
          ((sys.filesOf id).lookup true (.ofOctets p)).isOk)
        if isThere then shown (" is " ++ (if isTracked then "a tracked alias for " else "") ++ p) p
        else pure ⟨127, if verbose then name ++ ": not found\n" else ""⟩
      | .unknown    => pure ⟨127, if verbose then name ++ ": not found\n" else ""⟩

/-- Says what some names stand for. -/
def type : Part := fun _ names => do
  let step (acc : Answer) (name : String) : Sh Answer := do
    let a ← describe true none name
    pure ⟨acc.status ||| a.status, acc.text ++ a.text⟩
  names.foldlM step {}

/-- Says what a name stands for if that is asked; otherwise there is nothing to be done. -/
def command : Part := fun _ args => do
  let (letters, names) ← options "pvV" args
  let asks (c : Char) : Bool := letters.any (·.1 = c)
  let path := if asks 'p' then some Lookup.standardPath else none
  match names with
  | name :: _ => if asks 'v' || asks 'V' then describe (asks 'V') path name else done
  | []        => done

/-- Shows where programs have been found, or looks for them. -/
def hash : Part := fun _ args => do
  let (letters, names) ← options "r" args
  let s ← get
  if !letters.isEmpty then
    MonadStateOf.set { s with found := [] }
    done
  else if names.isEmpty then
    say (String.join ((inTableOrder 31 s.found.reverse).map fun e => e.2 ++ "\n"))
  else
    let step (acc : Answer) (name : String) : Sh Answer := do
      modify fun s => { s with found := s.found.filter (·.1 != name) }
      match ← Lookup.find name true true none with
      | .unknown => pure { acc with status := 1 }
      | _        => pure acc
    names.foldlM step {}

end Assay.Shell.Builtin.Naming
