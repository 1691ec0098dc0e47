import Assay.Floating
import Assay.Utility.Escapes
import Assay.Utility.Quoting

/-!
# Utility — formatted printing

What `printf` does with a format and its arguments. The format is used again as long as it uses up
arguments.

* `Printf.run`: the whole command, as a part of a shell or as a program.
-/

namespace Assay

namespace Printf

/-! ### Numbers -/

/-- An argument read as a whole number, and what is wrong with it. -/
structure Number where
  value : Int
  fault : Option String := none
  warning : Option String := none

/-- The base of a number from its first digits, and the rest. -/
def base : List Char → Nat × List Char
  | '0' :: 'x' :: d :: r => if (digitValue? 16 d).isSome then (16, d :: r) else (8, '0' :: 'x' :: d :: r)
  | '0' :: 'X' :: d :: r => if (digitValue? 16 d).isSome then (16, d :: r) else (8, '0' :: 'X' :: d :: r)
  | '0' :: r             => (8, '0' :: r)
  | cs                   => (10, cs)

/-- Cuts a number to the range that may be printed; a number below zero is printed as unsigned by
going around. -/
def clamp (isSigned : Bool) (n : Int) : Int :=
  let least : Int := -9223372036854775808
  let most : Int := if isSigned then 9223372036854775807 else 18446744073709551615
  max least (min most n)

/-- How an argument shows in a message. -/
def shown (c : Caller) (arg : String) : String :=
  if c.isShell then arg else Quoting.curved arg

def notNumeric (c : Caller) : String :=
  if c.isShell then ": expected numeric value" else ": expected a numeric value"

def notConverted (c : Caller) : String :=
  if c.isShell then ": not completely converted" else ": value not completely converted"

def outOfRange : String := ": Numerical result out of range"

/-- What is wrong with a number that is out of range or not all of its argument; a shell looks at the
latter first. -/
def why (c : Caller) (isOut isWhole : Bool) : Option String :=
  if c.isShell && !isWhole then some (notConverted c)
  else if isOut then some outOfRange
  else if isWhole then none
  else some (notConverted c)

/-- The number of a character behind a quote, and what is wrong with what follows it. -/
def character (c : Caller) (d : Char) (rest : List Char) : Number :=
  let (code, behind) : Nat × List Char :=
    if c.isShell then (d.toNat, [])
    else
      match Quoting.decodeFront (d :: rest) with
      | some (code, n) => (code, (d :: rest).drop n)
      | none           => (d.toNat, rest)
  ⟨code, none,
    if behind.isEmpty then none
    else some (String.ofList behind ++
      ": character(s) following character constant have been ignored")⟩

/-- Reads an argument: a number, or a quote and a character that stands for its own number. -/
def number (c : Caller) (isSigned : Bool) (arg : String) : Number :=
  match arg.toList with
  | '"' :: d :: r    => character c d r
  | '\x27' :: d :: r => character c d r
  | cs =>
    let isQuote := c.isShell && [['"'], ['\x27']].contains cs
    let cs := cs.dropWhile isNumberBlank
    let (negative, cs) : Bool × List Char :=
      match cs with
      | '-' :: r => (true, r)
      | '+' :: r => (false, r)
      | cs       => (false, cs)
    let (b, cs) := base cs
    let (n, v, rest) := readDigits b cs.length cs
    let value : Int := if negative then -(v : Int) else v
    if arg.isEmpty || isQuote then ⟨0, none, none⟩
    else if n = 0 then ⟨0, some (shown c arg ++ notNumeric c), none⟩
    else
      let isOut := clamp isSigned value ≠ value
      let value :=
        if !isOut then value else if isSigned then clamp isSigned value else 18446744073709551615
      ⟨value, (why c isOut rest.isEmpty).map fun text => shown c arg ++ text, none⟩

/-- An argument read as a number that may have a fraction. -/
structure Measure where
  negative : Bool
  value : Floating
  fault : Option String := none
  warning : Option String := none

/-- The numbers that are printed: a program has longer ones than a shell. -/
def format (c : Caller) : Floating.Format :=
  if c.isShell then Floating.double else Floating.extended

def measure (c : Caller) (arg : String) : Measure :=
  match arg.toList with
  | '"' :: d :: r    =>
    let n := character c d r
    ⟨false, .finite n.value.toNat 0, none, n.warning⟩
  | '\x27' :: d :: r =>
    let n := character c d r
    ⟨false, .finite n.value.toNat 0, none, n.warning⟩
  | cs =>
    if arg.isEmpty then ⟨false, .finite 0 0, none, none⟩
    else
      match Floating.read (format c) (cs.dropWhile isNumberBlank) with
      | none   => ⟨false, .finite 0 0, some (shown c arg ++ notNumeric c), none⟩
      | some r =>
        ⟨r.negative, r.value,
          (why c r.outOfRange r.rest.isEmpty).map fun text => shown c arg ++ text, none⟩

/-! ### Directives -/

/-- What stands between the percent sign and the letter of a directive. -/
structure Layout where
  flags : List Char := []
  left : Bool := false
  width : Nat := 0
  places : Option Nat := none

namespace Layout

def has (l : Layout) (flag : Char) : Bool := l.flags.contains flag

/-- Fills up to the width with blanks. -/
def fill (l : Layout) (cs : List Char) : List Char :=
  let blanks := List.replicate (l.width - cs.length) ' '
  if l.left then cs ++ blanks else blanks ++ cs

def text (l : Layout) (cs : List Char) : List Char :=
  l.fill (l.places.elim cs cs.take)

/-- The sign of a number. -/
def sign (l : Layout) (negative : Bool) : List Char :=
  if negative then ['-'] else if l.has '+' then ['+'] else if l.has ' ' then [' '] else []

/-- The digits of a number with what stands in front of it. -/
def integer (l : Layout) (front : List Char) (digits : List Char) : List Char :=
  let least :=
    match l.places with
    | some n => n
    | none   => if l.has '0' && !l.left then l.width - front.length else 1
  l.fill (front ++ List.replicate (least - digits.length) '0' ++ digits)

/-- A whole number as the letter of a directive wants it. -/
def number (l : Layout) (letter : Char) (n : Int) : List Char :=
  let digits (b : Nat) (v : Nat) : List Char := if v = 0 then [] else Nat.toDigits b v
  if letter = 'd' || letter = 'i' then l.integer (l.sign (n < 0)) (digits 10 n.natAbs)
  else
    let v := (n % 18446744073709551616).toNat
    let alternate := l.has '#' && v != 0
    if letter = 'o' then l.integer [] ((if l.has '#' then ['0'] else []) ++ digits 8 v)
    else if letter = 'x' then l.integer (if alternate then ['0', 'x'] else []) (digits 16 v)
    else if letter = 'X' then
      l.integer (if alternate then ['0', 'X'] else []) ((digits 16 v).map Char.toUpper)
    else l.integer [] (digits 10 v)

/-- A number with a fraction as the letter of a directive wants it. -/
def measure (l : Layout) (f : Floating.Format) (letter : Char) (m : Measure) : List Char :=
  let alternate := l.has '#'
  let places := l.places.getD 6
  let (front, body, isNumber) : List Char × List Char × Bool :=
    match m.value with
    | .infinite     => ([], "inf".toList, false)
    | .undefined    => ([], "nan".toList, false)
    | .finite n e   =>
      match letter.toLower with
      | 'f' => ([], Floating.fixed n e places alternate, true)
      | 'e' => ([], Floating.scientific n e places alternate, true)
      | 'g' => ([], Floating.general n e places alternate, true)
      | _   =>
        let cs := Floating.hexadecimal f n e l.places alternate
        (cs.take 2, cs.drop 2, true)
  let front := l.sign m.negative ++ front
  let zeros :=
    if l.has '0' && !l.left && isNumber then l.width - front.length - body.length else 0
  let cs := l.fill (front ++ List.replicate zeros '0' ++ body)
  if letter.isUpper then cs.map Char.toUpper else cs

end Layout

/-! ### Printing -/

/-- Printing under way: the texts printed, newest first, the text since the last message, also newest
first, and the arguments left. -/
structure Printing where
  args : List String
  prints : List (Bool × String) := []
  out : List Char := []
  status : Nat := 0
  /-- Whether no more is printed. -/
  halted : Bool := false

namespace Printing

def put (p : Printing) (cs : List Char) : Printing := { p with out := cs.reverse ++ p.out }

/-- Ends the text printed so far. -/
def flush (p : Printing) : Printing :=
  if p.out.isEmpty then p
  else { p with prints := (false, String.ofList p.out.reverse) :: p.prints, out := [] }

def complain (p : Printing) (c : Caller) (text : String) (status : Nat) : Printing :=
  let p := p.flush
  { p with prints := (true, c.message "printf" text) :: p.prints, status := status }

def warn (p : Printing) (c : Caller) (text : Option String) : Printing :=
  text.elim p fun text => p.complain c ("warning: " ++ text) p.status

/-- Stops at a directive that there is not. -/
def reject (p : Printing) (c : Caller) (directive : List Char) : Printing :=
  let shown := String.ofList directive
  let p :=
    match c with
    | .shell _   => p.complain c (shown ++ ": invalid directive") 2
    | .program _ => p.complain c (shown ++ ": invalid conversion specification") 1
  { p with halted := true }

/-- Stops if an escape says so. -/
def endWith (p : Printing) (c : Caller) : Option Expansion → Printing
  | none              => p
  | some (.fault why) => { p.complain c why 1 with halted := true }
  | some _            => { p with halted := true }

/-- The next argument. -/
def next (p : Printing) : Option String × Printing := (p.args.head?, { p with args := p.args.tail })

/-- The next argument as a whole number. -/
def nextNumber (p : Printing) (c : Caller) (isSigned : Bool) : Int × Printing :=
  let (arg, p) := p.next
  let n := number c isSigned (arg.getD "")
  let p := n.fault.elim p fun why => p.complain c why 1
  (n.value, p.warn c n.warning)

/-- Prints the next argument as a directive wants it. -/
def direct (p : Printing) (c : Caller) (l : Layout) (letter : Char) : Printing :=
  if letter = 's' then
    let (arg, p) := p.next
    p.put (l.text (arg.getD "").toList)
  else if letter = 'q' then
    let (arg, p) := p.next
    p.put (arg.elim [] fun a => (Quoting.ifNeeded a).toList)
  else if letter = 'c' then
    let (arg, p) := p.next
    let first := (arg.getD "").toList.head?
    p.put (l.fill (if c.isShell || first.isSome then [first.getD '\x00'] else ['\x00']))
  else if letter = 'b' then
    let (arg, p) := p.next
    let (cs, stop) := (Escapes.argument c).expandText (arg.getD "")
    (p.put (l.text cs)).endWith c stop
  else if "diouxX".toList.contains letter then
    let (n, p) := p.nextNumber c (letter = 'd' || letter = 'i')
    p.put (l.number letter n)
  else
    let (arg, p) := p.next
    let m := measure c (arg.getD "")
    let p := m.fault.elim p fun why => p.complain c why 1
    (p.warn c m.warning).put (l.measure (format c) letter m)

end Printing

/-! ### Reading directives -/

/-- Characters that may stand in front of the width. -/
def flagsOf (c : Caller) : List Char :=
  if c.isShell then "#-+ 0".toList else "#-+ 0'I".toList

/-- A width or a number of places: digits, or a star for the next argument. A program takes none for
no digits. -/
def amount (c : Caller) (p : Printing) (cs : List Char) : Option Int × Printing × List Char :=
  match cs with
  | '*' :: r =>
    let (n, p) := p.nextNumber c true
    (some n, p, r)
  | cs =>
    let (n, v, rest) := readDigits 10 cs.length cs
    (if n = 0 then none else some v, p, rest)

/-- Reads flags, width and places. -/
def layout (c : Caller) (p : Printing) (cs : List Char) : Layout × Printing × List Char :=
  let isFlag (d : Char) : Bool := (flagsOf c).contains d
  let flags := cs.takeWhile isFlag
  let (width, p, cs) := amount c p (cs.dropWhile isFlag)
  let width := width.getD 0
  let left := flags.contains '-' || width < 0
  match cs with
  | '.' :: r =>
    let (places, p, r) := amount c p r
    let places := places.getD 0
    (⟨flags, left, width.natAbs, if places < 0 then none else some places.toNat⟩, p, r)
  | cs => (⟨flags, left, width.natAbs, none⟩, p, cs)

/-- Letters of directives. -/
def letters : List Char := "diouxXfFeEgGaAsc".toList

/-- Whether a directive of a program may have its flags and places. -/
def isFitting (l : Layout) (letter : Char) : Bool :=
  let excluded : List Char :=
    (if l.has '\x27' || l.has 'I' then "aAceEosxX".toList else []) ++
    (if l.has '#' then "cdisu".toList else []) ++
    (if l.has '0' then "cs".toList else []) ++
    (if l.places.isSome then ['c'] else [])
  letters.contains letter && !excluded.contains letter

/-- Carries out a directive, given what stands behind its percent sign; also what follows it. -/
def directive (c : Caller) (cs : List Char) (p : Printing) : Printing × List Char :=
  let (l, p, rest) := layout c p cs
  let rest := if c.isShell then rest else rest.dropWhile ("hlLjtz".toList.contains ·)
  let whole (rest : List Char) : List Char := '%' :: cs.take (cs.length - rest.length)
  match rest with
  | [] =>
    if c.isShell then ({ p.complain c "missing format character" 2 with halted := true }, [])
    else (p.reject c (whole []), [])
  | letter :: rest' =>
    let isKnown :=
      if c.isShell then letters.contains letter || letter = 'b'
      else isFitting l letter || ((letter = 'b' || letter = 'q') && cs.length = rest'.length + 1)
    if isKnown then (p.direct c l letter, rest') else (p.reject c (whole rest'), rest')

/-- Uses a format once. -/
def once (c : Caller) : Nat → List Char → Printing → Printing
  | 0, _, p => p
  | _ + 1, [], p => p
  | k + 1, '\\' :: r, p =>
    match (Escapes.format c).expand r with
    | .text cs rest => once c k rest (p.put cs)
    | other         => p.endWith c (some other)
  | k + 1, '%' :: '%' :: r, p => once c k r (p.put ['%'])
  | k + 1, '%' :: r, p =>
    let (p, rest) := directive c r p
    if p.halted then p else once c k rest p
  | k + 1, d :: r, p => once c k r (p.put [d])

/-- Uses a format as long as that uses up arguments, `k` times at most. -/
def repeated (c : Caller) (format : List Char) : Nat → Printing → Printing
  | 0, p     => p
  | k + 1, p =>
    let q := once c (format.length + 1) format p
    if q.halted || q.args.isEmpty then q
    else if q.args.length = p.args.length then
      if c.isShell then q
      else
        q.warn c (some ("ignoring excess arguments, starting with " ++
          Quoting.curved (q.args.headD "")))
    else repeated c format k q

/-- Prints some arguments by a format. -/
def print (c : Caller) (format : String) (args : List String) : Effect :=
  let p := (repeated c format.toList (args.length + 1) { args }).flush
  ⟨p.prints.reverse, p.status⟩

/-- The command with all its arguments. -/
def run (c : Caller) (args : List String) : Effect :=
  match args with
  | "--" :: format :: args => print c format args
  | [] | ["--"] =>
    match c with
    | .shell _   => .say (c.message "printf" "usage: printf format [arg ...]") 2
    | .program _ => .say (c.message "printf" "missing operand" ++ c.hint) 1
  | format :: args =>
    match c, format.toList with
    | .shell _, '-' :: letter :: _ =>
      .say (c.message "printf" ("Illegal option -" ++ String.singleton letter)) 2
    | _, _ => print c format args

end Printf

end Assay
