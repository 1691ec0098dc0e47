import Assay.Proofs.Scratch.Naming
import Assay.Proofs.Text.Lines
import Assay.Text.Quoted
import Assay.Text.Unprintable
import Mathlib.Tactic.SplitIfs

/-!
# Text — what a quoted text shows

Between quotes a character is written by a letter behind a backslash, by its number in braces, or as
it is (`Stands`). None of these spellings begins another one, and none begins like the closing
quote. So a quoted text ends at its own quote and determines the text and what follows it, whatever
the text looks like and whichever characters are hidden (`quoteChars_append_inj`).

* `mem_quote`: all that is shown is printable ASCII or a character that is not hidden.
* `not_isControl_of_mem_quote`: if the controls are hidden, none is shown.
-/

namespace Assay.Text

variable {hidden : Char → Bool} {c d x : Char} {s t v w : List Char}

/-- What is in front of a first mark and what is behind it are determined by the list. -/
theorem append_mark_inj {α : Type} [DecidableEq α] {x : α} {as as' bs bs' : List α} (h : x ∉ as)
    (h' : x ∉ as') (heq : as ++ x :: bs = as' ++ x :: bs') : as = as' ∧ bs = bs' := by
  have hsplit := congrArg (List.splitOn x) heq
  rw [List.splitOn_append_cons_self, List.splitOn_append_cons_self, List.splitOn_eq_singleton h,
    List.splitOn_eq_singleton h'] at hsplit
  obtain rfl := (List.cons.inj hsplit).1
  exact ⟨rfl, (List.cons.inj (List.append_cancel_left heq)).2⟩

/-! ### Numbers in base sixteen -/

theorem toDigits_sixteen_injective : Function.Injective (Nat.toDigits 16) := by
  have hdigit : ∀ a < 16, ∀ b < 16, Nat.digitChar a = Nat.digitChar b → a = b := by decide
  intro m
  -- By the last digit: in front of it stands the number divided by sixteen.
  induction m using Nat.strongRecOn with
  | ind m ih =>
    intro n h
    rw [Nat.toDigits_eq_if (n := m) (by decide), Nat.toDigits_eq_if (n := n) (by decide)] at h
    split at h
    next hm =>
      split at h
      next hn => exact hdigit m hm n hn (List.cons.inj h).1
      next =>
        have hlong : [] ++ [Nat.digitChar m] =
          Nat.toDigits 16 (n / 16) ++ [Nat.digitChar (n % 16)] := h
        exact absurd (List.append_inj' hlong rfl).1.symm Nat.toDigits_ne_nil
    next hm =>
      split at h
      next =>
        have hlong : Nat.toDigits 16 (m / 16) ++ [Nat.digitChar (m % 16)] =
          [] ++ [Nat.digitChar n] := h
        exact absurd (List.append_inj' hlong rfl).1 Nat.toDigits_ne_nil
      next hn =>
        obtain ⟨hfront, hlast⟩ := List.append_inj' h rfl
        have hdiv : m / 16 = n / 16 := ih (m / 16) (by omega) hfront
        have hmod : m % 16 = n % 16 :=
          hdigit _ (Nat.mod_lt m (by decide)) _ (Nat.mod_lt n (by decide)) (List.cons.inj hlast).1
        omega

/-- The brace behind a number is where the number ends. -/
theorem escapeNumber_append_inj (h : escapeNumber c ++ s = escapeNumber d ++ t) :
    c = d ∧ s = t := by
  have hbrace : ∀ n, '\x7d' ∉ Nat.toDigits 16 n := fun n hn =>
    absurd (Scratch.toDigits_hex n _ hn).2 (by decide)
  simp only [escapeNumber, List.append_assoc, List.append_cancel_left_eq, List.singleton_append]
    at h
  obtain ⟨hdigits, hrest⟩ := append_mark_inj (hbrace _) (hbrace _) h
  exact ⟨Char.toNat_inj.1 (toDigits_sixteen_injective hdigits), hrest⟩

/-! ### One character -/

/-- The characters that have a letter of their own. -/
def letters : List (Char × Char) :=
  [('"', '"'), ('\\', '\\'), ('\x00', '0'), ('\t', 't'), ('\n', 'n'), ('\r', 'r')]

/-- What may stand for a character between quotes, whichever characters are hidden. -/
inductive Stands : Char → List Char → Prop where
  | letter {c d : Char} (h : (c, d) ∈ letters) : Stands c ['\\', d]
  | number (c : Char) : Stands c (escapeNumber c)
  | plain {c : Char} (hquote : c ≠ '"') (hback : c ≠ '\\') : Stands c [c]

theorem stands_escape (hidden : Char → Bool) (c : Char) : Stands c (escape hidden c) := by
  unfold escape
  split_ifs with hquote hback hnul htab hfeed hreturn
  · exact .letter (by rw [hquote]; decide)
  · exact .letter (by rw [hback]; decide)
  · exact .letter (by rw [hnul]; decide)
  · exact .letter (by rw [htab]; decide)
  · exact .letter (by rw [hfeed]; decide)
  · exact .letter (by rw [hreturn]; decide)
  · exact .number c
  · exact .plain hquote hback

/-- No spelling begins another one. -/
theorem Stands.append_inj (hv : Stands c v) (hw : Stands d w) (h : v ++ s = w ++ t) :
    c = d ∧ s = t := by
  -- A letter and a number both begin with a backslash: only what is behind it tells them apart.
  have hsame : ∀ p ∈ letters, ∀ q ∈ letters, p.2 = q.2 → p.1 = q.1 := by decide
  have hnumber : ∀ p ∈ letters, p.2 ≠ 'u' := by decide
  cases hv with
  | letter hc =>
    cases hw with
    | letter hd =>
      obtain ⟨-, htail⟩ := List.cons.inj h
      obtain ⟨hletter, hrest⟩ := List.cons.inj htail
      exact ⟨hsame _ hc _ hd hletter, hrest⟩
    | number => exact absurd (List.cons.inj (List.cons.inj h).2).1 (hnumber _ hc)
    | plain _ hback => exact absurd (List.cons.inj h).1.symm hback
  | number =>
    cases hw with
    | letter hd => exact absurd (List.cons.inj (List.cons.inj h).2).1.symm (hnumber _ hd)
    | number => exact escapeNumber_append_inj h
    | plain _ hback => exact absurd (List.cons.inj h).1.symm hback
  | plain _ hback =>
    cases hw with
    | letter => exact absurd (List.cons.inj h).1 hback
    | number => exact absurd (List.cons.inj h).1 hback
    | plain => exact List.cons.inj h

/-- No spelling begins with the quote that ends a text. -/
theorem Stands.append_ne (hv : Stands c v) : v ++ s ≠ '"' :: t := by
  intro h
  cases hv with
  | letter => exact absurd (List.cons.inj h).1 (by decide)
  | number => exact absurd (List.cons.inj h).1 (by decide)
  | plain hquote _ => exact hquote (List.cons.inj h).1

/-! ### A whole text -/

/-- Spellings up to a quote determine the characters and what is behind the quote. -/
theorem flatMap_escape_append_inj {cs ds : List Char}
    (h : cs.flatMap (escape hidden) ++ '"' :: s = ds.flatMap (escape hidden) ++ '"' :: t) :
    cs = ds ∧ s = t := by
  -- Both lists lose one whole spelling at a time, until one of them is at its quote.
  induction cs generalizing ds with
  | nil =>
    cases ds with
    | nil => exact ⟨rfl, (List.cons.inj h).2⟩
    | cons d ds =>
      rw [List.flatMap_cons, List.append_assoc] at h
      exact absurd h.symm (stands_escape hidden d).append_ne
  | cons c cs ih =>
    rw [List.flatMap_cons, List.append_assoc] at h
    cases ds with
    | nil => exact absurd h (stands_escape hidden c).append_ne
    | cons d ds =>
      rw [List.flatMap_cons, List.append_assoc] at h
      obtain ⟨rfl, htail⟩ := (stands_escape hidden c).append_inj (stands_escape hidden d) h
      obtain ⟨rfl, hrest⟩ := ih htail
      exact ⟨rfl, hrest⟩

/-- A quoted text determines the text, and what follows it. -/
theorem quoteChars_append_inj {cs ds : List Char}
    (h : quoteChars hidden cs ++ s = quoteChars hidden ds ++ t) : cs = ds ∧ s = t := by
  simp only [quoteChars, List.cons_append, List.append_assoc] at h
  exact flatMap_escape_append_inj (List.cons.inj h).2

/-! ### What is shown -/

/-- Whether a character is a control: U+0000 to U+001F and U+007F to U+009F. -/
def IsControl (c : Char) : Prop := c.toNat < 0x20 ∨ 0x7F ≤ c.toNat ∧ c.toNat < 0xA0

instance (c : Char) : Decidable (IsControl c) := inferInstanceAs (Decidable (_ ∨ _))

/-- Whether a character is one of ASCII that is shown as it is. -/
def IsPrintableAscii (c : Char) : Prop := 0x20 ≤ c.toNat ∧ c.toNat < 0x7F

instance (c : Char) : Decidable (IsPrintableAscii c) := inferInstanceAs (Decidable (_ ∧ _))

theorem isPrintableAscii_of_mem_escapeNumber (h : x ∈ escapeNumber c) : IsPrintableAscii x := by
  simp only [escapeNumber, List.mem_append] at h
  have hfront : ∀ x ∈ ['\\', 'u', '\x7b'], IsPrintableAscii x :=
    List.forall_iff_forall_mem.1 (by decide)
  obtain (h | h) | h := h
  · exact hfront x h
  · obtain ⟨hlt, hhex⟩ := Scratch.toDigits_hex _ x h
    exact Scratch.forall_char_lt
      (P := fun x => Scratch.IsHex (UInt8.ofNat x.toNat) → IsPrintableAscii x) (by decide) hlt hhex
  · rw [List.mem_singleton.1 h]
    decide

/-- What stands for a character is printable ASCII, unless it is the character itself, not hidden
and no line feed. -/
theorem mem_escape (h : x ∈ escape hidden c) :
    IsPrintableAscii x ∨ hidden x = false ∧ x ≠ '\n' := by
  have hsecond : ∀ p ∈ letters, IsPrintableAscii p.2 := by decide
  have hletter : ∀ p ∈ letters, ∀ x ∈ ['\\', p.2], IsPrintableAscii x := fun p hp =>
    List.forall_mem_cons.2 ⟨by decide, List.forall_mem_singleton.2 (hsecond p hp)⟩
  unfold escape at h
  split_ifs at h with hquote hback hnul htab hfeed hreturn hhidden
  · exact .inl (hletter ('"', '"') (by decide) x h)
  · exact .inl (hletter ('\\', '\\') (by decide) x h)
  · exact .inl (hletter ('\x00', '0') (by decide) x h)
  · exact .inl (hletter ('\t', 't') (by decide) x h)
  · exact .inl (hletter ('\n', 'n') (by decide) x h)
  · exact .inl (hletter ('\r', 'r') (by decide) x h)
  · exact .inl (isPrintableAscii_of_mem_escapeNumber h)
  · rw [List.mem_singleton.1 h]
    exact .inr ⟨Bool.eq_false_iff.2 hhidden, hfeed⟩

theorem mem_quote {s : String} (h : x ∈ (quote hidden s).toList) :
    IsPrintableAscii x ∨ hidden x = false ∧ x ≠ '\n' := by
  rw [quote, String.toList_ofList, quoteChars, List.cons_append, List.mem_cons, List.mem_append,
    List.mem_flatMap, List.mem_singleton] at h
  obtain rfl | ⟨c, -, hc⟩ | rfl := h
  · exact .inl (by decide)
  · exact mem_escape hc
  · exact .inl (by decide)

/-- Quoted text has its line feeds escaped. -/
theorem isLine_quote (hidden : Char → Bool) (s : String) : IsLine (quote hidden s) := by
  intro h
  obtain h | ⟨-, h⟩ := mem_quote h
  · exact absurd h (by decide)
  · exact h rfl

theorem not_isControl_of_mem_quote (hhidden : ∀ c, IsControl c → hidden c = true) {s : String}
    (h : x ∈ (quote hidden s).toList) : ¬ IsControl x := by
  intro hx
  obtain ⟨hlow, hhigh⟩ | ⟨hshown, -⟩ := mem_quote h
  · unfold IsControl at hx
    omega
  · rw [hhidden x hx] at hshown
    cases hshown

/-- The table of what is not printable has the controls. -/
theorem isUnprintable_of_isControl (h : IsControl c) : isUnprintable c = true := by
  obtain h | ⟨hlow, hhigh⟩ := h
  · exact isUnprintable_of_lt h
  · rw [isUnprintable, show unprintableRanges =
      (0x0, 0x1F) :: (0x7F, 0xA0) :: unprintableRanges.tail.tail from rfl, inRanges, inRanges]
    have hle : c.toNat ≤ 0xA0 := Nat.le_of_lt hhigh
    simp [hlow, hle]

end Assay.Text
