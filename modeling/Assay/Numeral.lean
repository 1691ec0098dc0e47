/-!
# Numeral — integers written in decimal

An optional sign and at least one ASCII digit. `parse` reads such a text into a range and says why
it cannot: digits are read from the left, and the first one that leads out of the range decides,
so a fault behind it is not seen.
-/

namespace Assay.Numeral

/-- The integers that may be written. A range without negative numbers has no minus sign. -/
structure Range where
  least : Int
  greatest : Int
  deriving DecidableEq, Repr

/-- Thirty-two bits with a sign: an exit code. -/
def Range.int32 : Range := ⟨-2147483648, 2147483647⟩

/-- Sixty-four bits with a sign: an integer of a settings file. -/
def Range.int64 : Range := ⟨-9223372036854775808, 9223372036854775807⟩

/-- Sixty-four bits without a sign: a number of jobs. -/
def Range.nat64 : Range := ⟨0, 18446744073709551615⟩

/-- Why a text is no integer of the range. -/
inductive Fault where
  | empty
  | invalidDigit
  | tooLarge
  | tooSmall
  deriving DecidableEq, Repr

def Fault.message : Fault → String
  | .empty        => "cannot parse integer from empty string"
  | .invalidDigit => "invalid digit found in string"
  | .tooLarge     => "number too large to fit in target type"
  | .tooSmall     => "number too small to fit in target type"

/-- The value of an ASCII digit. -/
def digit? (c : Char) : Option Nat :=
  if '0' ≤ c ∧ c ≤ '9' then some (c.toNat - '0'.toNat) else none

/-- Appends a digit to a number that counts away from zero. -/
def push (r : Range) (negative : Bool) (n : Int) (c : Char) : Except Fault Int :=
  match digit? c with
  | none => .error .invalidDigit
  | some d =>
    if negative then
      if 10 * n - d < r.least then .error .tooSmall else .ok (10 * n - d)
    else
      if 10 * n + d > r.greatest then .error .tooLarge else .ok (10 * n + d)

/-- Reads the digits behind the sign. -/
def digits (r : Range) (negative : Bool) : List Char → Except Fault Int
  | [] => .error .invalidDigit
  | cs => cs.foldlM (push r negative) 0

/-- Reads the whole text as an integer of the range. -/
def parse (r : Range) : List Char → Except Fault Int
  | []        => .error .empty
  | '+' :: cs => digits r false cs
  | '-' :: cs => if r.least < 0 then digits r true cs else .error .invalidDigit
  | cs        => digits r false cs

end Assay.Numeral
