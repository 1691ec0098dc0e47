import Assay.Floating
import Assay.Utility.Digits
import Assay.Utility.Quoting

/-!
# Utility — sleep

Waits for as long as its arguments say together. An argument is a number, which may have a fraction,
and a unit.
-/

namespace Assay.Sleep

/-- The seconds of a unit. -/
def unit? : List Char → Option Nat
  | [] | ['s'] => some 1
  | ['m']      => some 60
  | ['h']      => some 3600
  | ['d']      => some 86400
  | _          => none

/-- The nanoseconds of a time with its unit, none of them for all time; an outer none if it is not
one. -/
def interval? (s : String) : Option (Option Nat) :=
  match Floating.read Floating.extended (s.toList.dropWhile isNumberBlank) with
  | none   => none
  | some r =>
    match r.value, unit? r.rest with
    | _, none                => none
    | .undefined, _          => none
    | .infinite, some _      => if r.negative then none else some none
    | .finite m e, some secs =>
      if r.negative ∧ m ≠ 0 then none
      else
        let (n, d) := Floating.scale (m * secs * 1000000000) 1 2 e
        some (some (n / d))

/-- The program. -/
def program : Utility.Program := fun name args =>
  Utility.Options.withOperands ⟨[], [], [("help", 'h', false), ("version", 'v', false)]⟩ name args
    fun choices times => do
      let bad := times.filter fun t => (interval? t).isNone
      if !choices.isEmpty then pure 0
      else if times.isEmpty then Utility.refuse name "missing operand"
      else if !bad.isEmpty then
        Code.tell 2 (String.join (bad.map fun t =>
          name ++ ": invalid time interval " ++ Quoting.curved t ++ "\n"))
        Code.tell 2 (Caller.program name).hint
        pure 1
      else
        let total := (times.filterMap interval?).foldl
          (fun acc t => acc.bind fun a => t.map (a + ·)) (some 0)
        match total with
        | some nanos => Code.sleep nanos
        | none       => Code.stuck
        pure 0

end Assay.Sleep
