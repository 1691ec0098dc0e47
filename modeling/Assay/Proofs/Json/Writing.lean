import Assay.Proofs.Json.Reading

/-!
# Json — the text over several lines

`isDocument_pretty`: what is written over several lines is a text of the grammar that writes the
value, whatever characters its strings hold. With the reader's own theorem, reading undoes writing
(`parse_pretty`).
-/

namespace Assay.Json

variable {b : List Char}

/-! ### Blanks and numbers -/

/-- A new line and its indentation are blanks. -/
theorem blank_newLine (level : Nat) : Blank (newLine level) := by
  simp [Blank, newLine, isBlank]

theorem blank_nil : Blank [] := nofun

theorem blank_space : Blank [' '] := by simp [Blank, isBlank]

/-- A number in base ten begins with a zero only if it is zero. -/
theorem head?_toDigits {n : Nat} (hn : n ≠ 0) : (Nat.toDigits 10 n).head? ≠ some '0' := by
  induction n using Nat.strongRecOn with
  | ind n ih =>
    by_cases hlt : n < 10
    · rw [Nat.toDigits_of_lt_base hlt]
      simpa using hn
    · rw [Nat.toDigits_eq_if (by decide), if_neg hlt,
        List.head?_append_of_ne_nil _ Nat.toDigits_ne_nil]
      exact ih (n / 10) (by omega) (by omega)

/-- The decimal digits of a number are a numeral for it. -/
theorem numeral_toDigits (n : Nat) : Numeral n (Nat.toDigits 10 n) where
  ne_nil := Nat.toDigits_ne_nil
  digits _ hc := Nat.isDigit_of_mem_toDigits (b := 10) (by decide) (by decide) hc
  leading h := by
    by_cases hn : n = 0
    · rw [hn]
      rfl
    · exact absurd h (head?_toDigits hn)
  value := Nat.ofDigitChars_ten_toDigits

/-- An integer is written as its digits, behind a minus sign if it is below zero. -/
theorem written_integer (n : Int) : Written (.int n) (integer n) := by
  cases n with
  | ofNat n => exact .natural (numeral_toDigits n)
  | negSucc n => exact .negative (numeral_toDigits (n + 1))

/-! ### Strings -/

theorem hexDigit?_digitChar : ∀ n < 16, hexDigit? (Nat.digitChar n) = some n := by decide

/-- A control character is written with four hexadecimal digits. -/
theorem fourHex_control {n : Nat} (h : n < 0x20) :
    FourHex n ['0', '0', Nat.digitChar (n / 16), Nat.digitChar (n % 16)] := by
  have hn : 16 * (16 * (16 * 0 + 0) + n / 16) + n % 16 = n := by omega
  have := FourHex.mk (hexDigit?_digitChar 0 (by decide)) (hexDigit?_digitChar 0 (by decide))
    (hexDigit?_digitChar (n / 16) (by omega)) (hexDigit?_digitChar (n % 16) (by omega))
  rwa [hn] at this

/-- Every character is written in one of its spellings. -/
theorem spelled_escape (c : Char) : Spelled c (escape c) := by
  rw [escape]
  split_ifs with hquote hback hbs hff hlf hcr htab hcontrol
  · exact .letter (by rw [hquote]; rfl)
  · exact .letter (by rw [hback]; rfl)
  · exact .letter (by rw [hbs]; rfl)
  · exact .letter (by rw [hff]; rfl)
  · exact .letter (by rw [hlf]; rfl)
  · exact .letter (by rw [hcr]; rfl)
  · exact .letter (by rw [htab]; rfl)
  · exact .number (fourHex_control hcontrol)
  · exact .plain hquote hback (by omega)

/-- What is escaped character by character spells the text. -/
theorem spells_escape : ∀ cs : List Char, Spells cs (cs.flatMap escape)
  | []      => .nil
  | c :: cs => .cons (spelled_escape c) (spells_escape cs)

/-- The written form of a text stands for it. -/
theorem quoted_string (s : String) : Quoted s (string s) := .mk (spells_escape s.toList)

/-! ### Values -/

mutual

/-- Whatever the level of indentation, what is printed stands for the value. -/
theorem written_prettyChars (level : Nat) : ∀ v : Json, Written v (prettyChars level v)
  | .null => .null
  | .bool b => .bool b
  | .int n => written_integer n
  | .str s => .str (quoted_string s)
  | .arr [] => .noItems blank_nil
  | .arr (v :: vs) => .arr (written_prettyItems (level + 1) (v :: vs) nofun (blank_newLine level))
  | .obj [] => .noFields blank_nil
  | .obj (f :: fs) => .obj (written_prettyFields (level + 1) (f :: fs) nofun (blank_newLine level))

/-- Items with the blanks in front of the closing bracket. -/
theorem written_prettyItems (level : Nat) : ∀ vs : List Json, vs ≠ [] → ∀ {b : List Char}, Blank b →
    WrittenItems vs (prettyItems level vs ++ b)
  | [], hne, _, _ => absurd rfl hne
  | [v], _, _, hb => .last (blank_newLine level) (written_prettyChars level v) hb
  | v :: u :: vs, _, _, hb => by
    have := WrittenItems.more (blank_newLine level) (written_prettyChars level v) blank_nil
      (written_prettyItems level (u :: vs) nofun hb)
    simpa [prettyItems] using this

/-- The printed fields of an object stand for them, also with blanks behind the last. -/
theorem written_prettyFields (level : Nat) : ∀ fs : List (String × Json), fs ≠ [] →
    ∀ {b : List Char}, Blank b → WrittenFields fs (prettyFields level fs ++ b)
  | [], hne, _, _ => absurd rfl hne
  | [(k, v)], _, _, hb => by
    have := WrittenFields.last (blank_newLine level) (quoted_string k) blank_nil blank_space
      (written_prettyChars level v) hb
    simpa [prettyFields] using this
  | (k, v) :: f :: fs, _, _, hb => by
    have := WrittenFields.more (blank_newLine level) (quoted_string k) blank_nil blank_space
      (written_prettyChars level v) blank_nil (written_prettyFields level (f :: fs) nofun hb)
    simpa [prettyFields] using this

end

/-- A printed value is a whole document. -/
theorem isDocument_pretty (v : Json) : IsDocument v v.pretty :=
  ⟨[], prettyChars 0 v, [], blank_nil, written_prettyChars 0 v, blank_nil, by simp [pretty]⟩

/-- Reading undoes writing. -/
theorem parse_pretty (v : Json) : parse v.pretty = some v :=
  parse_of_isDocument (isDocument_pretty v)

end Assay.Json
