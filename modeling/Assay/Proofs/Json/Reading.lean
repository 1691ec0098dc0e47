import Assay.Proofs.Json.Grammar
import Mathlib.Data.List.DropRight

/-!
# Json — every document is read

`parse_of_isDocument`: the reader finds the value of every text that the grammar derives, in
whatever layout it is written.

A reader leaves what stands behind the part that it has read, so each lemma is about a part with an
arbitrary rest. Only a number needs to know its rest: it goes on for as long as digits follow.
-/

namespace Assay.Json

variable {v : Json} {vs : List Json} {fs : List (String × Json)} {b w r : List Char} {c : Char}

/-! ### Blanks -/

theorem skipBlanks_of_not_isBlank (hc : isBlank c = false) : skipBlanks (c :: r) = c :: r :=
  List.dropWhile_cons_of_neg (by rw [hc]; exact Bool.false_ne_true)

/-- Leading blanks make no difference to what is behind them. -/
theorem skipBlanks_append (hb : Blank b) : skipBlanks (b ++ r) = skipBlanks r :=
  List.dropWhile_append_of_pos hb

theorem skipBlanks_append_cons (hb : Blank b) (hc : isBlank c = false) :
    skipBlanks (b ++ c :: r) = c :: r := by
  rw [skipBlanks_append hb, skipBlanks_of_not_isBlank hc]

theorem skipBlanks_idem (cs : List Char) : skipBlanks (skipBlanks cs) = skipBlanks cs :=
  List.dropWhile_idempotent isBlank cs

/-! ### Numbers -/

/-- Whether a text does not go on with a digit. -/
def Ended (r : List Char) : Prop := ∀ c ∈ r.head?, c.isDigit = false

theorem not_isDigit_of_isBlank (h : isBlank c) : c.isDigit = false := by
  simp only [isBlank, Bool.or_eq_true, decide_eq_true_eq] at h
  obtain ((rfl | rfl) | rfl) | rfl := h <;> rfl

/-- A number ends where blanks or what is no digit follow. -/
theorem ended_of_blank (hb : Blank b) (hc : c.isDigit = false) : Ended (b ++ c :: r) := by
  cases b with
  | nil => simpa [Ended] using hc
  | cons d b => simpa [Ended] using not_isDigit_of_isBlank (hb d List.mem_cons_self)

/-- A numeral is read up to its end, whatever follows. -/
theorem natural_append {n : Nat} (h : Numeral n w) (hr : Ended r) :
    natural (w ++ r) = some (n, r) := by
  have htake : r.takeWhile Char.isDigit = [] := by
    cases r with
    | nil => rfl
    | cons d r => exact List.takeWhile_cons_of_neg (by simp [hr d rfl])
  have hdrop : r.dropWhile Char.isDigit = r := by
    cases r with
    | nil => rfl
    | cons d r => exact List.dropWhile_cons_of_neg (by simp [hr d rfl])
  rw [natural, List.takeWhile_append_of_pos h.digits, List.dropWhile_append_of_pos h.digits, htake,
    hdrop, List.append_nil]
  obtain ⟨hne, -, hzero, hvalue⟩ := h
  split
  · exact absurd rfl hne
  · have := hzero rfl
    simp at this
  · rw [hvalue]

/-! ### Strings -/

/-- To read a string goes on from spot to spot as `readSpot` says, up to the closing quote. -/
theorem stringFrom_spot {p q : Spot} {k l : List Char} (hq : ¬ (c = '"' ∧ p = .plain none))
    (h : readSpot p c k = some (q, l)) : stringFrom p k (c :: r) = stringFrom q l r := by
  rw [stringFrom, if_neg hq, h]

/-- A digit of an escape by number that is not its last. -/
theorem stringFrom_digit {high : Option Nat} {missing value d : Nat} {acc : List Char}
    (hd : hexDigit? c = some d) :
    stringFrom (.unit high (missing + 2) value) acc (c :: r) =
      stringFrom (.unit high (missing + 1) (16 * value + d)) acc r := by
  refine stringFrom_spot (by simp) ?_
  rw [readSpot, hd]
  exact if_pos (by omega)

/-- An escape by number is read up to its last digit, which completes the unit. -/
theorem stringFrom_unit {high : Option Nat} {n : Nat} {q : Spot} {k l : List Char}
    (h : FourHex n w) (hn : readUnit high n k = some (q, l)) :
    stringFrom (.plain high) k ('\\' :: 'u' :: w ++ r) = stringFrom q l r := by
  obtain ⟨ha, hb, hc, hd⟩ := h
  simp only [List.cons_append, List.nil_append]
  rw [stringFrom_spot (q := .escape high) (l := k) (by simp) rfl,
    stringFrom_spot (q := .unit high 4 0) (l := k) (by simp) rfl,
    stringFrom_digit ha, stringFrom_digit hb, stringFrom_digit hc]
  refine stringFrom_spot (by simp) ?_
  rw [readSpot, hd]
  simpa using hn

/-- No character is half of a pair. -/
theorem not_surrogate (c : Char) : c.toNat < 0xD800 ∨ 0xDFFF < c.toNat := by
  obtain h | h := c.valid
  · exact .inl h
  · exact .inr h.1

/-- Each spelling of a character is read as that character. -/
theorem stringFrom_spelled {acc : List Char} (h : Spelled c w) :
    stringFrom (.plain none) acc (w ++ r) = stringFrom (.plain none) (c :: acc) r := by
  cases h with
  | plain hquote hback hcontrol =>
    refine stringFrom_spot (by simp [hquote]) ?_
    rw [readSpot, if_neg hback, if_neg (by simpa using hcontrol)]
  | @letter d h =>
    have hu : d ≠ 'u' := by rintro rfl; simp [letter?] at h
    simp only [List.cons_append, List.nil_append]
    rw [stringFrom_spot (q := .escape none) (l := acc) (by simp) rfl]
    refine stringFrom_spot (by simp) ?_
    rw [readSpot, if_neg hu]
    simp only [h]
  | number h =>
    refine stringFrom_unit h ?_
    have := not_surrogate c
    rw [readUnit, if_neg (by omega), if_neg (by omega), Char.ofNat_toNat]
  | @halves m n w x hw hx hm hn hc =>
    rw [List.append_assoc, stringFrom_unit hw (q := .plain (some m)) (l := acc)
      (by rw [readUnit, if_pos hm])]
    refine stringFrom_unit hx ?_
    rw [readUnit, if_pos hn, ← hc, Char.ofNat_toNat]

/-- A string is read character by character up to the quote that closes it. -/
theorem stringFrom_spells {cs acc : List Char} (h : Spells cs w) :
    stringFrom (.plain none) acc (w ++ '"' :: r) = some (String.ofList (acc.reverse ++ cs), r) := by
  induction h generalizing acc with
  | nil => simp [stringFrom]
  | cons h t ih =>
    rw [List.append_assoc, stringFrom_spelled h, ih]
    simp

/-- A string between quotes is read as what it stands for, whatever follows. -/
theorem stringAt_quoted {s : String} (h : Quoted s w) : stringAt (w ++ r) = some (s, r) := by
  obtain ⟨h⟩ := h
  simp only [List.cons_append, List.append_assoc, List.nil_append]
  rw [stringAt, stringFrom_spells h]
  simp

/-- A key behind its blanks. -/
theorem stringAt_blank {s : String} (hb : Blank b) (h : Quoted s w) :
    stringAt (skipBlanks (b ++ (w ++ r))) = some (s, r) := by
  obtain ⟨x, rfl⟩ : ∃ x, w = '"' :: x := by
    cases h
    exact ⟨_, rfl⟩
  rw [List.cons_append, skipBlanks_append_cons hb (by decide), ← List.cons_append]
  exact stringAt_quoted h

/-! ### How a value begins -/

/-- A string begins with a quote. -/
theorem Quoted.eq_cons {s : String} (h : Quoted s w) : ∃ x, w = '"' :: x := by
  cases h
  exact ⟨_, rfl⟩

/-- A numeral begins with a digit. -/
theorem Numeral.eq_cons {n : Nat} (h : Numeral n w) : ∃ c x, w = c :: x ∧ c.isDigit := by
  obtain ⟨c, x, rfl⟩ := List.exists_cons_of_ne_nil h.ne_nil
  exact ⟨c, x, rfl, h.digits c List.mem_cons_self⟩

theorem not_isBlank_of_isDigit (h : c.isDigit) : isBlank c = false := by
  rw [Bool.eq_false_iff]
  intro hb
  simp [not_isDigit_of_isBlank hb] at h

/-- A value begins with neither a blank nor the end of a list. -/
theorem Written.eq_cons (h : Written v w) : ∃ c x, w = c :: x ∧ isBlank c = false ∧ c ≠ ']' := by
  cases h with
  | null => exact ⟨_, _, rfl, by decide, by decide⟩
  | bool b => cases b <;> exact ⟨_, _, rfl, by decide, by decide⟩
  | natural h =>
    obtain ⟨c, x, rfl, hc⟩ := h.eq_cons
    refine ⟨c, x, rfl, not_isBlank_of_isDigit hc, ?_⟩
    rintro rfl
    simp [Char.isDigit] at hc
  | negative h => exact ⟨_, _, rfl, by decide, by decide⟩
  | str h =>
    obtain ⟨x, rfl⟩ := h.eq_cons
    exact ⟨_, _, rfl, by decide, by decide⟩
  | noItems hb | arr h | noFields hb | obj h => exact ⟨_, _, rfl, by decide, by decide⟩

theorem length_skipBlanks_le (cs : List Char) : (skipBlanks cs).length ≤ cs.length :=
  (List.dropWhile_sublist isBlank).length_le

/-- The items of a list begin, behind their blanks, with no closing bracket, and no more items are
written than characters. -/
theorem WrittenItems.eq_cons : ∀ {vs : List Json} {w : List Char}, WrittenItems vs w → ∀ r,
    ∃ c x, skipBlanks (w ++ r) = c :: x ∧ c ≠ ']' ∧ vs.length ≤ x.length + 1
  | _, _, @WrittenItems.last _ _ _ b' hb h _, r => by
    obtain ⟨c, x, rfl, hc, hne⟩ := h.eq_cons
    refine ⟨c, x ++ (b' ++ r), ?_, hne, by simp⟩
    simp only [List.append_assoc, List.cons_append]
    exact skipBlanks_append_cons hb hc
  | _, _, @WrittenItems.more _ _ _ _ b' y hb h _ t, r => by
    obtain ⟨c, x, rfl, hc, hne⟩ := h.eq_cons
    obtain ⟨c', x', hx', -, hlen⟩ := t.eq_cons r
    have hy := length_skipBlanks_le (y ++ r)
    rw [hx'] at hy
    refine ⟨c, x ++ (b' ++ ',' :: (y ++ r)), ?_, hne, ?_⟩
    · simp only [List.append_assoc, List.cons_append]
      exact skipBlanks_append_cons hb hc
    · simp only [List.length_cons, List.length_append] at hy ⊢
      omega

/-- The fields of an object begin, behind their blanks, with a quote. -/
theorem WrittenFields.eq_cons : ∀ {fs : List (String × Json)} {w : List Char},
    WrittenFields fs w → ∀ r, ∃ x, skipBlanks (w ++ r) = '"' :: x ∧ fs.length ≤ x.length + 1
  | _, _, @WrittenFields.last _ _ _ _ b' d w d' hb hk _ _ _ _, r => by
    obtain ⟨x, rfl⟩ := hk.eq_cons
    refine ⟨x ++ (b' ++ ':' :: (d ++ (w ++ (d' ++ r)))), ?_, by simp⟩
    simp only [List.append_assoc, List.cons_append]
    exact skipBlanks_append_cons hb (by decide)
  | _, _, @WrittenFields.more _ _ _ _ _ b' d w d' y hb hk _ _ _ _ t, r => by
    obtain ⟨x, rfl⟩ := hk.eq_cons
    obtain ⟨x', hx', hlen⟩ := t.eq_cons r
    have hy := length_skipBlanks_le (y ++ r)
    rw [hx'] at hy
    refine ⟨x ++ (b' ++ ':' :: (d ++ (w ++ (d' ++ ',' :: (y ++ r))))), ?_, ?_⟩
    · simp only [List.append_assoc, List.cons_append]
      exact skipBlanks_append_cons hb (by decide)
    · simp only [List.length_cons, List.length_append] at hy ⊢
      omega

/-! ### Values -/

/-- A value is read the same with and without the blanks before it. -/
theorem value_skipBlanks (k : Nat) (cs : List Char) : value k (skipBlanks cs) = value k cs := by
  cases k with
  | zero => rfl
  | succ k => rw [value, value, skipBlanks_idem]

/-- Items are read the same with and without the blanks before them. -/
theorem itemsWith_skipBlanks (k n : Nat) (cs : List Char) :
    itemsWith (value k) n (skipBlanks cs) = itemsWith (value k) n cs := by
  cases n with
  | zero => rfl
  | succ n => rw [itemsWith, itemsWith, value_skipBlanks]

/-- Fields are read the same with and without the blanks before them. -/
theorem fieldsWith_skipBlanks (k n : Nat) (cs : List Char) :
    fieldsWith (value k) n (skipBlanks cs) = fieldsWith (value k) n cs := by
  cases n with
  | zero => rfl
  | succ n => rw [fieldsWith, fieldsWith, skipBlanks_idem]

theorem value_blank {k : Nat} (hb : Blank b) : value k (b ++ r) = value k r := by
  rw [← value_skipBlanks, skipBlanks_append hb, value_skipBlanks]

/-- A number is what is left when the first character is no mark of another kind of value. -/
theorem value_natural {k n : Nat} (h : Numeral n w) (hr : Ended r) :
    value (k + 1) (w ++ r) = some (.int n, r) := by
  have hn := natural_append h hr
  obtain ⟨c, x, rfl, hc⟩ := h.eq_cons
  rw [List.cons_append] at hn ⊢
  rw [value, skipBlanks_of_not_isBlank (not_isBlank_of_isDigit hc)]
  split
  case h_8 =>
    rw [hn]
    rfl
  all_goals
    rename_i heq
    obtain ⟨rfl, -⟩ := List.cons.inj heq
    simp [Char.isDigit] at hc

/-- A numeral behind a minus sign is read as its opposite. -/
theorem value_negative {k n : Nat} (h : Numeral n w) (hr : Ended r) :
    value (k + 1) ('-' :: w ++ r) = some (.int (-n), r) := by
  rw [List.cons_append, value, skipBlanks_of_not_isBlank (by decide)]
  simp only [natural_append h hr]
  rfl

/-- A string is read as a value. -/
theorem value_str {k : Nat} {s : String} (h : Quoted s w) :
    value (k + 1) (w ++ r) = some (.str s, r) := by
  obtain ⟨h⟩ := h
  simp only [List.cons_append, List.append_assoc, List.nil_append]
  rw [value, skipBlanks_of_not_isBlank (by decide)]
  simp [stringFrom_spells h]

/-- Brackets with blanks alone between them are the empty array. -/
theorem value_noItems {k : Nat} (hb : Blank b) :
    value (k + 1) ('[' :: b ++ [']'] ++ r) = some (.arr [], r) := by
  simp only [List.cons_append, List.append_assoc, List.nil_append]
  rw [value, skipBlanks_of_not_isBlank (by decide)]
  simp only [skipBlanks_append_cons (r := r) hb (show isBlank ']' = false by decide)]

/-- Braces with blanks alone between them are the empty object. -/
theorem value_noFields {k : Nat} (hb : Blank b) :
    value (k + 1) ('\x7b' :: b ++ ['\x7d'] ++ r) = some (.obj [], r) := by
  simp only [List.cons_append, List.append_assoc, List.nil_append]
  rw [value, skipBlanks_of_not_isBlank (by decide)]
  simp only [skipBlanks_append_cons (r := r) hb (show isBlank '\x7d' = false by decide)]

/-- An array is read if its items are. -/
theorem value_arr {k : Nat} (h : WrittenItems vs w)
    (hread : ∀ n, vs.length ≤ n → itemsWith (value k) n (w ++ ']' :: r) = some (vs, r)) :
    value (k + 1) ('[' :: w ++ [']'] ++ r) = some (.arr vs, r) := by
  simp only [List.cons_append, List.append_assoc, List.nil_append]
  rw [value, skipBlanks_of_not_isBlank (by decide)]
  obtain ⟨c, x, hx, hne, hlen⟩ := h.eq_cons (']' :: r)
  simp only
  split
  next heq =>
    rw [hx] at heq
    exact absurd (List.cons.inj heq).1 hne
  next =>
    rw [itemsWith_skipBlanks, hread _ (by rw [hx, List.length_cons]; omega)]
    rfl

/-- An object is read if its fields are. -/
theorem value_obj {k : Nat} (h : WrittenFields fs w)
    (hread : ∀ n, fs.length ≤ n → fieldsWith (value k) n (w ++ '\x7d' :: r) = some (fs, r)) :
    value (k + 1) ('\x7b' :: w ++ ['\x7d'] ++ r) = some (.obj fs, r) := by
  simp only [List.cons_append, List.append_assoc, List.nil_append]
  rw [value, skipBlanks_of_not_isBlank (by decide)]
  obtain ⟨x, hx, hlen⟩ := h.eq_cons ('\x7d' :: r)
  simp only
  split
  next heq =>
    rw [hx] at heq
    exact absurd (List.cons.inj heq).1 (by decide)
  next =>
    rw [fieldsWith_skipBlanks, hread _ (by rw [hx, List.length_cons]; omega)]
    rfl

mutual

/-- A value is read by a reader that may go as deep as its text is long. -/
theorem value_written : ∀ {v : Json} {w r : List Char} {k : Nat}, Written v w → w.length ≤ k →
    Ended r → value k (w ++ r) = some (v, r)
  | _, _, _, k, h, hk, hr => by
    obtain ⟨k, rfl⟩ : ∃ j, k = j + 1 := by
      obtain ⟨c, x, rfl, -⟩ := h.eq_cons
      exact ⟨k - 1, by simp only [List.length_cons] at hk; omega⟩
    match h with
    | .null => rfl
    | .bool b => cases b <;> rfl
    | .natural h => exact value_natural h hr
    | .negative h => exact value_negative h hr
    | .str h => exact value_str h
    | .noItems hb => exact value_noItems hb
    | .arr h =>
      simp only [List.length_cons, List.length_append] at hk
      exact value_arr h fun n hn => itemsWith_written h (by omega) hn
    | .noFields hb => exact value_noFields hb
    | .obj h =>
      simp only [List.length_cons, List.length_append] at hk
      exact value_obj h fun n hn => fieldsWith_written h (by omega) hn

/-- Written items are read one after another up to the bracket. -/
theorem itemsWith_written : ∀ {vs : List Json} {w r : List Char} {k n : Nat},
    WrittenItems vs w → w.length ≤ k → vs.length ≤ n →
      itemsWith (value k) n (w ++ ']' :: r) = some (vs, r)
  | _, _, _, _, 0, h, _, hn => by cases h <;> exact absurd hn (by simp)
  | _, _, _, k, n + 1, .last hb h hb', hk, _ => by
    simp only [List.append_assoc, List.length_append] at hk ⊢
    rw [itemsWith, value_blank hb, value_written h (by omega) (ended_of_blank hb' (by decide))]
    simp [skipBlanks_append_cons hb' (show isBlank ']' = false by decide)]
  | _, _, r, k, n + 1, .more hb h hb' t, hk, hn => by
    simp only [List.append_assoc, List.cons_append, List.length_append, List.length_cons] at hk hn ⊢
    have ht := itemsWith_written t (r := r) (k := k) (n := n) (by omega) (by omega)
    rw [itemsWith, value_blank hb, value_written h (by omega) (ended_of_blank hb' (by decide))]
    simp [skipBlanks_append_cons hb' (show isBlank ',' = false by decide), ht]

/-- Written fields are read one after another up to the brace. -/
theorem fieldsWith_written : ∀ {fs : List (String × Json)} {w r : List Char} {k n : Nat},
    WrittenFields fs w → w.length ≤ k → fs.length ≤ n →
      fieldsWith (value k) n (w ++ '\x7d' :: r) = some (fs, r)
  | _, _, _, _, 0, h, _, hn => by cases h <;> exact absurd hn (by simp)
  | _, _, _, k, n + 1, .last hb hkey hb' hd h hd', hk, _ => by
    simp only [List.append_assoc, List.cons_append, List.length_append, List.length_cons] at hk ⊢
    rw [fieldsWith, stringAt_blank hb hkey]
    simp [skipBlanks_append_cons hb' (show isBlank ':' = false by decide), value_blank hd,
      value_written h (k := k) (by omega)
        (ended_of_blank hd' (show ('\x7d').isDigit = false by decide)),
      skipBlanks_append_cons hd' (show isBlank '\x7d' = false by decide)]
  | _, _, r, k, n + 1, .more hb hkey hb' hd h hd' t, hk, hn => by
    simp only [List.append_assoc, List.cons_append, List.length_append, List.length_cons] at hk hn ⊢
    have ht := fieldsWith_written t (r := r) (k := k) (n := n) (by omega) (by omega)
    rw [fieldsWith, stringAt_blank hb hkey]
    simp [skipBlanks_append_cons hb' (show isBlank ':' = false by decide), value_blank hd,
      value_written h (k := k) (by omega)
        (ended_of_blank hd' (show (',').isDigit = false by decide)),
      skipBlanks_append_cons hd' (show isBlank ',' = false by decide), ht]

end

/-- The reader finds the value of every document. -/
theorem parse_of_isDocument {s : String} (h : IsDocument v s) : parse s = some v := by
  obtain ⟨b, w, b', hb, h, hb', hs⟩ := h
  have hr : Ended b' := by
    cases b' with
    | nil => exact fun c hc => nomatch hc
    | cons c b' =>
      exact ended_of_blank (b := []) nofun (not_isDigit_of_isBlank (hb' c List.mem_cons_self))
  have hread : value (s.toList.length + 1) s.toList = some (v, b') := by
    rw [hs, List.append_assoc, value_blank hb]
    exact value_written h (by simp only [List.length_append]; omega) hr
  have hend : skipBlanks b' = [] := List.dropWhile_eq_nil_iff.2 hb'
  rw [parse, hread]
  simp [hend]

end Assay.Json
