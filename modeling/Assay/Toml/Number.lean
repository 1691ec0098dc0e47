import Assay.Numeral
import Assay.Toml.Text

/-!
# Toml — numbers and dates

A number or a date is a token: all characters up to a blank, a comma, a closing bracket, a comment
or the end of the line. Only a date may go on behind a blank, with a time.
-/

namespace Assay.Toml

def isDigit (c : Char) : Bool := '0' ≤ c && c ≤ '9'

/-- Whether a character ends a token. -/
def endsToken (c : Char) : Bool :=
  isSpace c || c = '\n' || c = ',' || c = ']' || c = '\x7d' || c = '#'

/-- The digits of a text in which single underscores may stand between digits. -/
def underscored (isOne : Char → Bool) : List Char → Option (List Char)
  | []               => none
  | [c]              => if isOne c then some [c] else none
  | c :: '_' :: r    => if isOne c then (underscored isOne r).map (c :: ·) else none
  | c :: r           => if isOne c then (underscored isOne r).map (c :: ·) else none

def ofDigits (base : Nat) (ds : List Char) : Nat :=
  ds.foldl (fun n c => base * n + (hexDigit? c).getD 0) 0

/-- Takes a sign off the front; the flag says whether it is a minus. -/
def sign : List Char → Bool × List Char
  | '-' :: r => (true, r)
  | '+' :: r => (false, r)
  | cs       => (false, cs)

/-- The digits of a decimal integer: no zero stands in front of another digit. -/
def decimalDigits (cs : List Char) : Option (List Char) :=
  match underscored isDigit cs with
  | some ('0' :: _ :: _) => none
  | ds                   => ds

/-- An integer as a token: decimal with a sign, or without one in another base. -/
def integer? : List Char → Option Int
  | '0' :: 'x' :: r => (underscored (fun c => (hexDigit? c).isSome) r).map (ofDigits 16 ·)
  | '0' :: 'o' :: r => (underscored (fun c => '0' ≤ c && c ≤ '7') r).map (ofDigits 8 ·)
  | '0' :: 'b' :: r => (underscored (fun c => c = '0' || c = '1') r).map (ofDigits 2 ·)
  | cs              =>
    let (negative, r) := sign cs
    (decimalDigits r).map fun ds => if negative then -(ofDigits 10 ds : Int) else ofDigits 10 ds

/-! ### Floating-point numbers -/

/-- Whether `n * 10 ^ e` is too large for the greatest finite number of sixty-four bits, that is,
at least halfway from it to the power of two above it. Sizes are compared by their digits first, so
that no huge power is computed. -/
def overflows (n : Nat) (e : Int) : Bool :=
  let size : Int := (Nat.toDigits 10 n).length + e
  if n = 0 ∨ size < 300 then false
  else if 320 < size then true
  else
    let bound := (Nat.pow 2 54 - 1) * Nat.pow 2 970
    if 0 ≤ e then bound ≤ n * Nat.pow 10 e.toNat else bound * Nat.pow 10 (-e).toNat ≤ n

/-- Splits an exponent off: the digits before it and its value, zero where there is none. -/
def exponent? (cs : List Char) : Option (List Char × Int) :=
  let front := cs.takeWhile fun c => c ≠ 'e' && c ≠ 'E'
  match cs.dropWhile fun c => c ≠ 'e' && c ≠ 'E' with
  | []     => some (front, 0)
  | _ :: r =>
    let (negative, ds) := sign r
    (underscored isDigit ds).map fun ds =>
      (front, if negative then -(ofDigits 10 ds : Int) else ofDigits 10 ds)

/-- Whether a token is a number with a fraction or an exponent, or one of the special values. Above
the greatest finite number there is none; below the least one there is. -/
def isFloat (cs : List Char) : Bool :=
  let (negative, r) := sign cs
  if r = ['i', 'n', 'f'] || r = ['n', 'a', 'n'] then true
  else
    match exponent? r with
    | none => false
    | some (front, e) =>
      let whole := front.takeWhile (· ≠ '.')
      match decimalDigits whole, front.dropWhile (· ≠ '.') with
      | some ds, []     => front.length < r.length && (negative || !overflows (ofDigits 10 ds) e)
      | some ds, _ :: f =>
        match underscored isDigit f with
        | some fs => negative || !overflows (ofDigits 10 (ds ++ fs)) (e - fs.length)
        | none    => false
      | none, _ => false

/-! ### Dates and times -/

/-- A number of exactly `k` digits from the front of a token. -/
def fixedDigits (k : Nat) (cs : List Char) : Option (Nat × List Char) :=
  let ds := cs.take k
  if ds.length = k ∧ ds.all isDigit then some (ofDigits 10 ds, cs.drop k) else none

def expectChar (c : Char) : List Char → Option (List Char)
  | d :: r => if c = d then some r else none
  | []     => none

def daysInMonth (year month : Nat) : Nat :=
  if month = 2 then
    if year % 4 = 0 ∧ (year % 100 ≠ 0 ∨ year % 400 = 0) then 29 else 28
  else if month ∈ [4, 6, 9, 11] then 30
  else 31

/-- A calendar date from the front of a token. -/
def date? (cs : List Char) : Option (List Char) := do
  let (year, r) ← fixedDigits 4 cs
  let (month, r) ← fixedDigits 2 (← expectChar '-' r)
  let (day, r) ← fixedDigits 2 (← expectChar '-' r)
  if 1 ≤ month ∧ month ≤ 12 ∧ 1 ≤ day ∧ day ≤ daysInMonth year month then some r else none

/-- A time of day from the front of a token; a leap second is the sixtieth. -/
def time? (cs : List Char) : Option (List Char) := do
  let (hour, r) ← fixedDigits 2 cs
  let (minute, r) ← fixedDigits 2 (← expectChar ':' r)
  let (second, r) ← fixedDigits 2 (← expectChar ':' r)
  if ¬(hour ≤ 23 ∧ minute ≤ 59 ∧ second ≤ 60) then none
  match r with
  | '.' :: f => if (f.takeWhile isDigit).isEmpty then none else some (f.dropWhile isDigit)
  | r        => some r

/-- The whole rest of a token as an offset from universal time, or nothing. -/
def isOffset : List Char → Bool
  | []     => true
  | ['Z']  => true
  | ['z']  => true
  | c :: r =>
    (c = '+' || c = '-') &&
      match fixedDigits 2 r with
      | some (hour, ':' :: r) =>
        match fixedDigits 2 r with
        | some (minute, []) => hour ≤ 23 && minute ≤ 59
        | _                 => false
      | _ => false

/-- Whether a token is a time, with an offset only if a date stands before it. -/
def isTime (dated : Bool) (cs : List Char) : Bool :=
  match time? cs with
  | some r => if dated then isOffset r else r.isEmpty
  | none   => false

/-- Whether a token is a date, a date and a time joined by a letter, or a time. -/
def isDate (cs : List Char) : Bool :=
  match date? cs with
  | some []         => true
  | some ('T' :: r) => isTime true r
  | some ('t' :: r) => isTime true r
  | some _          => false
  | none            => isTime false cs

/-- The time that may follow a date behind one space. -/
def timeBehind : List Char → Option (List Char × List Char)
  | ' ' :: r =>
    let t := r.takeWhile (!endsToken ·)
    if isTime true t then some (t, r.dropWhile (!endsToken ·)) else none
  | _        => none

/-- A number or a date from the front of a text. -/
def number : Reader Value := fun cs =>
  let token := cs.takeWhile (!endsToken ·)
  let r := cs.dropWhile (!endsToken ·)
  if isDate token then
    match if date? token = some [] then timeBehind r else none with
    | some (t, r) => .ok (.date (String.ofList (token ++ ' ' :: t)), r)
    | none        => .ok (.date (String.ofList token), r)
  else if isFloat token then .ok (.float (String.ofList token), r)
  else
    match integer? token with
    | none   => .error .badValue
    | some n =>
      if Numeral.Range.int64.least ≤ n ∧ n ≤ Numeral.Range.int64.greatest then .ok (.integer n, r)
      else .error .integerRange

end Assay.Toml
