import Assay.Json.Reader
import Assay.Json.Writer

/-!
# Json — which texts write a value

The grammar of documents, without fractions and exponents: `Written v w` says that the text `w`,
which has no blanks around it, writes the value `v`, in any layout and with any choice of escapes.
`WrittenItems` and `WrittenFields` are for what stands between brackets and between braces, blanks
included, and `IsDocument v s` is for a whole text, one value with blanks around it.

Nothing here is read or written by a program: the grammar stands between the reader, which finds the
value of every text of it, and the writer, which writes texts of it.
-/

namespace Assay.Json

/-! ### Blanks, numbers and strings -/

def Blank (w : List Char) : Prop := ∀ c ∈ w, isBlank c

/-- The digits of a number in base ten, none of them a zero in front of others. -/
structure Numeral (n : Nat) (w : List Char) : Prop where
  ne_nil : w ≠ []
  digits : ∀ c ∈ w, c.isDigit
  leading : w.head? = some '0' → w = ['0']
  value : w.foldl (fun n c => 10 * n + (c.toNat - '0'.toNat)) 0 = n

/-- Four hexadecimal digits and the number that they make. -/
inductive FourHex : Nat → List Char → Prop
  | mk {a b c d : Char} {w x y z : Nat} (ha : hexDigit? a = some w) (hb : hexDigit? b = some x)
      (hc : hexDigit? c = some y) (hd : hexDigit? d = some z) :
      FourHex (16 * (16 * (16 * w + x) + y) + z) [a, b, c, d]

/-- The ways to write one character of a string: as itself, by a letter, by its number or, above
U+FFFF, by the numbers of its two halves. -/
inductive Spelled : Char → List Char → Prop
  | plain {c : Char} (hquote : c ≠ '"') (hback : c ≠ '\\') (hcontrol : 0x20 ≤ c.toNat) :
      Spelled c [c]
  | letter {c d : Char} (h : letter? d = some c) : Spelled c ['\\', d]
  | number {c : Char} {w : List Char} (h : FourHex c.toNat w) : Spelled c ('\\' :: 'u' :: w)
  | halves {c : Char} {m n : Nat} {w x : List Char} (hw : FourHex m w) (hx : FourHex n x)
      (hm : 0xD800 ≤ m ∧ m ≤ 0xDBFF) (hn : 0xDC00 ≤ n ∧ n ≤ 0xDFFF)
      (hc : c.toNat = 0x10000 + (m - 0xD800) * 0x400 + (n - 0xDC00)) :
      Spelled c ('\\' :: 'u' :: w ++ '\\' :: 'u' :: x)

/-- Characters of a string, each in one of its spellings. -/
inductive Spells : List Char → List Char → Prop
  | nil : Spells [] []
  | cons {c : Char} {cs w x : List Char} (h : Spelled c w) (t : Spells cs x) :
      Spells (c :: cs) (w ++ x)

/-- A string with its quotes. -/
inductive Quoted : String → List Char → Prop
  | mk {s : String} {w : List Char} (h : Spells s.toList w) : Quoted s ('"' :: w ++ ['"'])

/-! ### Values -/

mutual

inductive Written : Json → List Char → Prop
  | null : Written .null ['n', 'u', 'l', 'l']
  | bool (b : Bool) : Written (.bool b) (boolean b)
  | natural {n : Nat} {w : List Char} (h : Numeral n w) : Written (.int n) w
  | negative {n : Nat} {w : List Char} (h : Numeral n w) : Written (.int (-n)) ('-' :: w)
  | str {s : String} {w : List Char} (h : Quoted s w) : Written (.str s) w
  | noItems {b : List Char} (hb : Blank b) : Written (.arr []) ('[' :: b ++ [']'])
  | arr {vs : List Json} {w : List Char} (h : WrittenItems vs w) :
      Written (.arr vs) ('[' :: w ++ [']'])
  | noFields {b : List Char} (hb : Blank b) : Written (.obj []) ('\x7b' :: b ++ ['\x7d'])
  | obj {fs : List (String × Json)} {w : List Char} (h : WrittenFields fs w) :
      Written (.obj fs) ('\x7b' :: w ++ ['\x7d'])

inductive WrittenItems : List Json → List Char → Prop
  | last {v : Json} {b w b' : List Char} (hb : Blank b) (h : Written v w) (hb' : Blank b') :
      WrittenItems [v] (b ++ w ++ b')
  | more {v : Json} {vs : List Json} {b w b' x : List Char} (hb : Blank b) (h : Written v w)
      (hb' : Blank b') (t : WrittenItems vs x) : WrittenItems (v :: vs) (b ++ w ++ b' ++ ',' :: x)

inductive WrittenFields : List (String × Json) → List Char → Prop
  | last {key : String} {v : Json} {b k b' d w d' : List Char} (hb : Blank b)
      (hk : Quoted key k) (hb' : Blank b') (hd : Blank d) (h : Written v w) (hd' : Blank d') :
      WrittenFields [(key, v)] (b ++ k ++ b' ++ ':' :: (d ++ w ++ d'))
  | more {key : String} {v : Json} {fs : List (String × Json)} {b k b' d w d' x : List Char}
      (hb : Blank b) (hk : Quoted key k) (hb' : Blank b') (hd : Blank d) (h : Written v w)
      (hd' : Blank d') (t : WrittenFields fs x) :
      WrittenFields ((key, v) :: fs) (b ++ k ++ b' ++ ':' :: (d ++ w ++ d' ++ ',' :: x))

end

/-- A whole text: one value with blanks around it. -/
def IsDocument (v : Json) (s : String) : Prop :=
  ∃ b w b', Blank b ∧ Written v w ∧ Blank b' ∧ s.toList = b ++ w ++ b'

end Assay.Json
