/-!
# Toml — values and faults

What a settings file in TOML holds, and why a text is none. A table remembers how it came to be,
because that decides what may still be added to it:

* a table with a header of its own takes no second header and no dotted key from outside;
* a table that a header only passed through may get its own header later;
* a table made by a dotted key takes further dotted keys but no header;
* a table in braces takes nothing more.
-/

namespace Assay.Toml

/-- How a table came to be. -/
inductive Origin where
  | header
  | passed
  | dotted
  | braces
  deriving DecidableEq, Repr

inductive Value where
  | text (s : String)
  | integer (n : Int)
  | float (digits : String)
  | boolean (b : Bool)
  | date (digits : String)
  | array (items : List Value)
  | table (origin : Origin) (entries : List (String × Value))
  /-- The tables of a header in double brackets, in order. -/
  | tables (items : List (List (String × Value)))
  deriving Repr, Inhabited

/-- Keys with their values, in the order of the text. -/
abbrev Table := List (String × Value)

/-- Why a text is no document, or a document not the settings that were asked for. -/
inductive Fault where
  | unterminatedString
  | badEscape
  | controlCharacter
  | badKey
  | badValue
  | integerRange
  | tooDeep
  | expected (what : String)
  | trailing
  | duplicate (key : String)
  | notTable (key : String)
  | wrongType (key what : String)
  | missing (key : String)
  deriving DecidableEq, Repr

def Fault.message : Fault → String
  | .unterminatedString => "unterminated string"
  | .badEscape          => "invalid escape sequence"
  | .controlCharacter   => "invalid control character"
  | .badKey             => "invalid key"
  | .badValue           => "invalid value"
  | .integerRange       => "integer out of range"
  | .tooDeep            => "too many nested values"
  | .expected what      => "expected " ++ what
  | .trailing           => "unexpected text at the end of a line"
  | .duplicate key      => "duplicate key: " ++ key
  | .notTable key       => "not a table: " ++ key
  | .wrongType key what => key ++ ": expected " ++ what
  | .missing key        => "missing key: " ++ key

/-- Reads something from the front of a text and leaves the rest. -/
abbrev Reader (α : Type) := List Char → Except Fault (α × List Char)

end Assay.Toml
