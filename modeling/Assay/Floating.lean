/-!
# Floating — numbers with a limited number of binary digits

A finite number is a whole number times a power of two. Texts are read to the nearest number that
has no more binary digits than its format allows, a half going to the even one, and numbers are
written in decimal or hexadecimal digits, again to the nearest.

* `Floating.read`: the number at the beginning of a text.
* `Floating.fixed`, `Floating.scientific`, `Floating.general`, `Floating.hexadecimal`: its texts.
-/

namespace Assay

/-- A number without its sign. -/
inductive Floating where
  /-- `mantissa` times two to the power of `exponent`. -/
  | finite (mantissa : Nat) (exponent : Int)
  | infinite
  | undefined
  deriving DecidableEq, Repr

namespace Floating

/-- A format of numbers. -/
structure Format where
  /-- The binary digits of a number. -/
  precision : Nat
  /-- The least exponent of a number that is a whole number times a power of two. -/
  least : Int
  /-- The exponent of the first digit, beyond which there is no number. -/
  most : Int
  /-- The binary digits in front of the point where a number is written in hexadecimal digits. -/
  lead : Nat
  deriving DecidableEq, Repr

/-- Numbers of 64 bits. -/
def double : Format := ⟨53, -1074, 1023, 1⟩

/-- Numbers of 80 bits. -/
def extended : Format := ⟨64, -16445, 16383, 4⟩

/-! ### Rounding -/

/-- The quotient to the nearest whole number, a half to the even one. -/
def divide (n d : Nat) : Nat :=
  let q := n / d
  let r := n % d
  if 2 * r < d ∨ (2 * r = d ∧ q % 2 = 0) then q else q + 1

/-- A power with an exponent that is not below zero, one otherwise. -/
def power (base : Nat) (e : Int) : Nat := Nat.pow base e.toNat

/-- `n / d` times `base` to the power of `e` as a quotient of whole numbers. -/
def scale (n d base : Nat) (e : Int) : Nat × Nat :=
  if e < 0 then (n, d * power base (-e)) else (n * power base e, d)

/-- The nearest number of a format, and whether it is too large or too small for that. -/
def nearest (f : Format) (n d : Nat) : Floating × Bool :=
  if n = 0 then (.finite 0 0, false)
  else
    let size : Int := (Nat.log2 n : Int) - (Nat.log2 d : Int)
    let rounded (e : Int) : Nat :=
      let (a, b) := scale n d 2 (-e)
      divide a b
    let e := max f.least (size - f.precision)
    let e := if rounded e < Nat.pow 2 f.precision then e else e + 1
    let e := if rounded e < Nat.pow 2 f.precision then e else e + 1
    let m := rounded e
    if m = 0 then (.finite 0 0, true)
    else if f.most < (Nat.log2 m : Int) + e then (.infinite, true)
    else
      let isTiny := m < Nat.pow 2 (f.precision - 1)
      let (a, b) := scale n d 2 (-e)
      (.finite m e, isTiny && a % b != 0)

/-! ### Reading -/

def digitOf (c : Char) : Nat :=
  if c.isDigit then c.toNat - '0'.toNat
  else if 'a' ≤ c ∧ c ≤ 'f' then c.toNat - 'a'.toNat + 10
  else c.toNat - 'A'.toNat + 10

def isHexDigit (c : Char) : Bool := c.isDigit || ('a' ≤ c && c ≤ 'f') || ('A' ≤ c && c ≤ 'F')

/-- The digits in front of and behind a point, and what follows. -/
def pointed (isDigit : Char → Bool) (cs : List Char) : List Char × List Char × List Char :=
  let whole := cs.takeWhile isDigit
  match cs.dropWhile isDigit with
  | '.' :: r => (whole, r.takeWhile isDigit, r.dropWhile isDigit)
  | r        => (whole, [], r)

def natOf (base : Nat) (ds : List Char) : Nat := ds.foldl (fun n d => n * base + digitOf d) 0

/-- The exponent behind one of two letters, zero if there is none, and what follows. -/
def exponentOf (letters : List Char) (cs : List Char) : Int × List Char :=
  match cs with
  | c :: r =>
    if letters.contains c then
      let (negative, ds) : Bool × List Char :=
        match r with
        | '-' :: r => (true, r)
        | '+' :: r => (false, r)
        | r        => (false, r)
      let digits := ds.takeWhile Char.isDigit
      if digits.isEmpty then (0, cs)
      else
        let n : Int := min (natOf 10 digits) 100000
        (if negative then -n else n, ds.dropWhile Char.isDigit)
    else (0, cs)
  | [] => (0, [])

/-- What was read at the beginning of a text. -/
structure Reading where
  negative : Bool
  value : Floating
  /-- Whether the format has no number that is near enough. -/
  outOfRange : Bool
  rest : List Char

/-- Whether a text begins with some small letters, whatever their case, and what follows them. -/
def word? (word : String) (cs : List Char) : Option (List Char) :=
  if (cs.take word.length).map Char.toLower = word.toList then some (cs.drop word.length) else none

/-- The number at the beginning of a text, if there is one. -/
def read (f : Format) (cs : List Char) : Option Reading :=
  let (negative, cs) : Bool × List Char :=
    match cs with
    | '-' :: r => (true, r)
    | '+' :: r => (false, r)
    | cs       => (false, cs)
  match word? "infinity" cs, word? "inf" cs, word? "nan" cs with
  | some r, _, _ => some ⟨negative, .infinite, false, r⟩
  | _, some r, _ => some ⟨negative, .infinite, false, r⟩
  | _, _, some r =>
    let inner := (r.drop 1).takeWhile fun c => c.isAlphanum || c = '_'
    let r :=
      if r.head? = some '(' ∧ (r.drop (1 + inner.length)).head? = some ')' then
        r.drop (2 + inner.length)
      else r
    some ⟨negative, .undefined, false, r⟩
  | none, none, none =>
    let hex := (cs.take 2).map Char.toLower = ['0', 'x'] &&
      (let (a, b, _) := pointed isHexDigit (cs.drop 2)
       !(a.isEmpty && b.isEmpty))
    if hex then
      let (a, b, r) := pointed isHexDigit (cs.drop 2)
      let (e, r) := exponentOf ['p', 'P'] r
      let (n, d) := scale (natOf 16 (a ++ b)) 1 2 (e - 4 * b.length)
      let (v, bad) := nearest f n d
      some ⟨negative, v, bad, r⟩
    else
      let (a, b, r) := pointed Char.isDigit cs
      if a.isEmpty ∧ b.isEmpty then none
      else
        let (e, r) := exponentOf ['e', 'E'] r
        let (n, d) := scale (natOf 10 (a ++ b)) 1 10 (e - b.length)
        let (v, bad) := nearest f n d
        some ⟨negative, v, bad, r⟩

/-! ### Writing -/

def digits (base n : Nat) : List Char := Nat.toDigits base n

/-- The digits of a number with a point in front of the last `places`. -/
def withPoint (places : Nat) (alternate : Bool) (ds : List Char) : List Char :=
  let ds := List.replicate (places + 1 - ds.length) '0' ++ ds
  let whole := ds.take (ds.length - places)
  let fraction := ds.drop (ds.length - places)
  whole ++ (if places = 0 ∧ !alternate then [] else '.' :: fraction)

/-- A finite number as a quotient. -/
def quotient (m : Nat) (e : Int) : Nat × Nat := scale m 1 2 e

/-- In decimal digits with so many of them behind the point. -/
def fixed (m : Nat) (e : Int) (places : Nat) (alternate : Bool) : List Char :=
  let (n, d) := quotient m e
  withPoint places alternate (digits 10 (divide (n * Nat.pow 10 places) d))

/-- The exponent of the first decimal digit of a quotient. -/
def decimalExponent (n d : Nat) : Int :=
  if n = 0 then 0
  else if d ≤ n then (digits 10 (n / d)).length - 1
  else
    let k := (digits 10 d).length - (digits 10 n).length
    if d ≤ n * Nat.pow 10 k then -(k : Int) else -(k + 1 : Int)

/-- The first digits of a quotient, one more than stated, and the exponent of the first of them. -/
def leading (n d places : Nat) : Nat × Int :=
  if n = 0 then (0, 0)
  else
    let x := decimalExponent n d
    let (a, b) := scale n d 10 (places - x)
    let q := divide a b
    if q = Nat.pow 10 (places + 1) then (Nat.pow 10 places, x + 1) else (q, x)

/-- An exponent with its sign and at least `width` digits. -/
def exponentText (letter : Char) (width : Nat) (x : Int) : List Char :=
  let ds := digits 10 x.natAbs
  letter :: (if x < 0 then '-' else '+') :: List.replicate (width - ds.length) '0' ++ ds

/-- With one digit in front of the point and an exponent of ten. -/
def scientific (m : Nat) (e : Int) (places : Nat) (alternate : Bool) : List Char :=
  let (n, d) := quotient m e
  let (q, x) := leading n d places
  withPoint places alternate (digits 10 q) ++ exponentText 'e' 2 x

/-- Takes zeros off the end of the digits behind a point, and a point behind which none are left. -/
def trimmed (cs : List Char) : List Char :=
  if cs.contains '.' then
    let r := cs.reverse.dropWhile (· = '0')
    (if r.head? = some '.' then r.drop 1 else r).reverse
  else cs

/-- With so many digits that count, the shorter way of the two. -/
def general (m : Nat) (e : Int) (places : Nat) (alternate : Bool) : List Char :=
  let p := max places 1
  let (n, d) := quotient m e
  let (q, x) := leading n d (p - 1)
  if -4 ≤ x ∧ x < p then
    let cs := fixed m e (p - 1 - x).toNat alternate
    if alternate then cs else trimmed cs
  else
    let cs := withPoint (p - 1) alternate (digits 10 q)
    (if alternate then cs else trimmed cs) ++ exponentText 'e' 2 x

/-- In hexadecimal digits with an exponent of two, as many as needed if no number is stated. -/
def hexadecimal (f : Format) (m : Nat) (e : Int) (places : Option Nat) (alternate : Bool) :
    List Char :=
  let fraction := (f.precision - f.lead + 3) / 4
  let bits := 4 * fraction + f.lead
  let isTiny := e = f.least && m < Nat.pow 2 (f.precision - 1)
  let (m, e) : Nat × Int :=
    if m = 0 then (0, 0)
    else if isTiny then (m, e)
    else
      let shift := bits - 1 - Nat.log2 m
      (m * Nat.pow 2 shift, e - shift)
  let x : Int := if m = 0 then 0 else e + 4 * fraction
  match places with
  | none   =>
    let ds := (digits 16 m)
    let cs := withPoint fraction true ds
    let cs := trimmed cs
    '0' :: 'x' :: cs ++ (if alternate ∧ !cs.contains '.' then ['.'] else []) ++
      exponentText 'p' 1 x
  | some p =>
    let m := if p < fraction then divide m (Nat.pow 16 (fraction - p)) else
      m * Nat.pow 16 (p - fraction)
    '0' :: 'x' :: withPoint p alternate (digits 16 m) ++ exponentText 'p' 1 x

end Floating

end Assay
