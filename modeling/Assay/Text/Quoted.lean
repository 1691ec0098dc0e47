/-!
# Text — Quoted

A text between double quotes. The quote, the backslash, NUL, tab, line feed and carriage return
have a letter of their own behind a backslash; other characters that are not shown stand as
`\u` with their number in braces. Which ones these are is a parameter, so that the laws of quoting
hold for any table.
-/

namespace Assay.Text

/-- The number of `c` in lower-case hexadecimal, in braces behind `\u`. -/
def escapeNumber (c : Char) : List Char :=
  ['\\', 'u', '\x7b'] ++ Nat.toDigits 16 c.toNat ++ ['\x7d']

/-- What stands for `c` between the quotes. -/
def escape (hidden : Char → Bool) (c : Char) : List Char :=
  if c = '"' then ['\\', '"']
  else if c = '\\' then ['\\', '\\']
  else if c = '\x00' then ['\\', '0']
  else if c = '\t' then ['\\', 't']
  else if c = '\n' then ['\\', 'n']
  else if c = '\r' then ['\\', 'r']
  else if hidden c then escapeNumber c
  else [c]

/-- The quoted form of a text. -/
def quoteChars (hidden : Char → Bool) (cs : List Char) : List Char :=
  '"' :: cs.flatMap (escape hidden) ++ ['"']

/-- The quoted form of `s`. -/
def quote (hidden : Char → Bool) (s : String) : String :=
  String.ofList (quoteChars hidden s.toList)

end Assay.Text
