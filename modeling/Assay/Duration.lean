/-!
# Duration — spans of time and their two texts

* `Duration.shortest`: in seconds from one second on, else in milli-, micro- or nanoseconds, with
  every digit that counts and no other.
* `Duration.twoPlaces`: in the same unit with exactly two decimals; a half goes to the even
  neighbour, and rounding up may reach a number that the next unit would show.
-/

namespace Assay

/-- Whole seconds and the nanoseconds beyond them. -/
structure Duration where
  secs : Nat
  nanos : Nat
  nanos_lt : nanos < 1000000000 := by omega
  deriving DecidableEq, Repr

namespace Duration

def zero : Duration := ⟨0, 0, by decide⟩

instance : Inhabited Duration := ⟨zero⟩

def ofSecs (n : Nat) : Duration := ⟨n, 0, by decide⟩

def ofMillis (n : Nat) : Duration := ⟨n / 1000, n % 1000 * 1000000, by omega⟩

/-- Whole milliseconds; a rest is dropped. -/
def millis (d : Duration) : Nat := d.secs * 1000 + d.nanos / 1000000

/-- All nanoseconds. -/
def totalNanos (d : Duration) : Nat := d.secs * 1000000000 + d.nanos

/-- A number of units, written as a whole part and a fraction of `places` decimal digits. -/
structure Scaled where
  whole : Nat
  fraction : Nat
  places : Nat
  unit : String
  deriving DecidableEq, Repr

/-- The largest unit of which `d` holds at least one, nanoseconds if there is none. -/
def scaled (d : Duration) : Scaled :=
  if 0 < d.secs then ⟨d.secs, d.nanos, 9, "s"⟩
  else if 1000000 ≤ d.nanos then ⟨d.nanos / 1000000, d.nanos % 1000000, 6, "ms"⟩
  else if 1000 ≤ d.nanos then ⟨d.nanos / 1000, d.nanos % 1000, 3, "µs"⟩
  else ⟨d.nanos, 0, 0, "ns"⟩

/-- `n` in decimal with zeros in front up to `width` digits. -/
def padded (width n : Nat) : List Char :=
  let ds := Nat.toDigits 10 n
  List.replicate (width - ds.length) '0' ++ ds

/-- A list of digits without the zeros at its end. -/
def trimZeros (ds : List Char) : List Char :=
  (ds.reverse.dropWhile (· = '0')).reverse

def Scaled.shortest (s : Scaled) : String :=
  let ds := if s.fraction = 0 then [] else trimZeros (padded s.places s.fraction)
  toString s.whole ++ (if ds.isEmpty then "" else "." ++ String.ofList ds) ++ s.unit

/-- The quotient of `n` by `d` to the nearest integer, a half to the even one. -/
def roundHalfEven (n d : Nat) : Nat :=
  let q := n / d
  let r := n % d
  if 2 * r < d then q else if 2 * r = d ∧ q % 2 = 0 then q else q + 1

/-- The value in hundredths of the unit. -/
def Scaled.hundredths (s : Scaled) : Nat :=
  let one := Nat.pow 10 s.places
  roundHalfEven ((s.whole * one + s.fraction) * 100) one

def Scaled.twoPlaces (s : Scaled) : String :=
  let h := s.hundredths
  toString (h / 100) ++ "." ++ String.ofList (padded 2 (h % 100)) ++ s.unit

def shortest (d : Duration) : String := d.scaled.shortest

def twoPlaces (d : Duration) : String := d.scaled.twoPlaces

end Duration

end Assay
