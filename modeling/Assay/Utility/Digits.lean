/-!
# Utility — numbers among arguments

Digits of some base at the front of a text, and texts that are decimal numbers with blanks around
them.

* `readDigits`: the digits in front.
* `decimal`: a whole text as a number of sixty-four bits.
-/

namespace Assay

/-- The value of a digit up to `base`. -/
def digitValue? (base : Nat) (c : Char) : Option Nat :=
  let v :=
    if '0' ≤ c ∧ c ≤ '9' then c.toNat - '0'.toNat
    else if 'a' ≤ c ∧ c ≤ 'f' then c.toNat - 'a'.toNat + 10
    else if 'A' ≤ c ∧ c ≤ 'F' then c.toNat - 'A'.toNat + 10
    else base
  if v < base then some v else none

/-- Reads `most` digits at most: how many there are, their value, and what follows. -/
def readDigits (base : Nat) : Nat → List Char → Nat × Nat × List Char
  | 0, cs            => (0, 0, cs)
  | _ + 1, []        => (0, 0, [])
  | most + 1, c :: r =>
    match digitValue? base c with
    | none   => (0, 0, c :: r)
    | some v =>
      let (n, w, rest) := readDigits base most r
      (n + 1, v * Nat.pow base n + w, rest)

/-- What may stand around a number. -/
def isNumberBlank (c : Char) : Bool := [' ', '\t', '\n', '\x0b', '\x0c', '\r'].contains c

/-- A text as a number with sign; there may be blanks around it. -/
def decimal (s : String) : Except String Int :=
  let cs := s.toList.dropWhile isNumberBlank
  let (negative, cs) : Bool × List Char :=
    match cs with
    | '-' :: r => (true, r)
    | '+' :: r => (false, r)
    | cs       => (false, cs)
  let (n, v, rest) := readDigits 10 cs.length cs
  let value : Int := if negative then -(v : Int) else v
  if n = 0 ∨ !rest.all isNumberBlank ∨ value < -9223372036854775808 ∨ 9223372036854775807 < value then
    .error ("Illegal number: " ++ s)
  else .ok value

end Assay
