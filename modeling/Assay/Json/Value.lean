/-!
# Json — values

Documents as data: numbers are integers, and objects keep the order of their keys.
-/

namespace Assay

inductive Json where
  | null
  | bool (b : Bool)
  | int (n : Int)
  | str (s : String)
  | arr (items : List Json)
  | obj (fields : List (String × Json))
  deriving Repr, Inhabited

namespace Json

/-- The value under a key. -/
def get? : Json → String → Option Json
  | .obj fields, key => fields.lookup key
  | _, _             => none

/-- A natural number. -/
def nat (n : Nat) : Json := .int n

end Json

end Assay
