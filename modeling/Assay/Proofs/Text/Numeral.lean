import Assay.Numeral

/-!
# Text — which texts are integers

A text denotes an integer if it is an optional sign with at least one ASCII digit behind it
(`Denotes`). It is read into a range exactly if the integer that it denotes lies there
(`parse_eq_ok_iff`): the digits are read from the left and the first that leads out of the range
ends the reading, but a number that is out of the range stays out of it, whatever digits follow.
-/

namespace Assay.Numeral

/-! ### What a text denotes -/

/-- Whether some characters are ASCII digits, one at least. -/
def IsDigits (cs : List Char) : Prop := cs ≠ [] ∧ ∀ c ∈ cs, c.isDigit = true

/-- The number that digits make in base ten behind a number read before them. -/
def valueFrom (n : Nat) (cs : List Char) : Nat :=
  cs.foldl (fun n c => 10 * n + (c.toNat - '0'.toNat)) n

/-- The integer with some digits and perhaps a minus sign. -/
def signed (negative : Bool) (n : Nat) : Int := if negative then -(n : Int) else n

/-- Whether a text is an optional sign and digits, and which integer it stands for. -/
inductive Denotes : List Char → Int → Prop where
  | bare {cs : List Char} (h : IsDigits cs) : Denotes cs (signed false (valueFrom 0 cs))
  | plus {cs : List Char} (h : IsDigits cs) : Denotes ('+' :: cs) (signed false (valueFrom 0 cs))
  | minus {cs : List Char} (h : IsDigits cs) : Denotes ('-' :: cs) (signed true (valueFrom 0 cs))

/-- Whether an integer lies in a range. -/
def Range.Holds (r : Range) (n : Int) : Prop := r.least ≤ n ∧ n ≤ r.greatest

/-- Nothing but digits begins with no sign. -/
theorem not_isDigits_of_sign {c : Char} (hc : c.isDigit = false) (cs : List Char) :
    ¬ IsDigits (c :: cs) := by
  intro h
  have hdigit := h.2 c List.mem_cons_self
  rw [hc] at hdigit
  cases hdigit

/-! ### One digit -/

/-- A digit stands for its distance from zero. -/
theorem digit?_eq (c : Char) :
    digit? c = if c.isDigit then some (c.toNat - '0'.toNat) else none := by
  have h : ('0' ≤ c ∧ c ≤ '9') ↔ c.isDigit = true := by
    rw [Char.isDigit_iff_toNat]
    exact Iff.rfl
  simp only [digit?, h]

/-- The number does not shrink as more digits are read. -/
theorem le_valueFrom (n : Nat) (cs : List Char) : n ≤ valueFrom n cs := by
  induction cs generalizing n with
  | nil => exact Nat.le_refl n
  | cons c cs ih =>
    have hstep : n ≤ 10 * n + (c.toNat - '0'.toNat) := by omega
    exact Nat.le_trans hstep (ih _)

/-- Whether a number with a sign has not left a range on the side of its sign. -/
def Range.Fits (r : Range) (negative : Bool) (n : Nat) : Prop :=
  if negative then r.least ≤ signed true n else signed false n ≤ r.greatest

/-- What is nearer to zero fits if something further away does. -/
theorem Range.Fits.mono {r : Range} {negative : Bool} {m n : Nat} (hle : m ≤ n)
    (h : r.Fits negative n) : r.Fits negative m := by
  cases negative
  · simp only [Fits, signed, Bool.false_eq_true, if_false] at h ⊢
    omega
  · simp only [Fits, signed, if_true] at h ⊢
    omega

/-- One more digit is taken exactly if the number with it fits. -/
theorem push_eq_ok_iff {r : Range} {negative : Bool} {n : Nat} {c : Char} {m : Int} :
    push r negative (signed negative n) c = .ok m ↔
      c.isDigit = true ∧ r.Fits negative (10 * n + (c.toNat - '0'.toNat)) ∧
        m = signed negative (10 * n + (c.toNat - '0'.toNat)) := by
  rw [push, digit?_eq]
  by_cases hc : c.isDigit = true
  · rw [if_pos hc]
    cases negative
    · simp only [signed, Range.Fits, Bool.false_eq_true, if_false]
      split
      · refine iff_of_false nofun ?_
        rintro ⟨-, hfits, -⟩
        omega
      · simp only [Except.ok.injEq, hc, true_and]
        omega
    · simp only [signed, Range.Fits, if_true]
      split
      · refine iff_of_false nofun ?_
        rintro ⟨-, hfits, -⟩
        omega
      · simp only [Except.ok.injEq, hc, true_and]
        omega
  · rw [if_neg hc]
    exact iff_of_false nofun fun h => hc h.1

/-! ### All digits -/

/-- Digits are taken one after another exactly if the number of all of them fits. -/
theorem foldlM_push_eq_ok_iff {r : Range} {negative : Bool} {n : Nat} {cs : List Char} {m : Int} :
    cs.foldlM (push r negative) (signed negative n) = .ok m ↔
      (∀ c ∈ cs, c.isDigit = true) ∧ (cs ≠ [] → r.Fits negative (valueFrom n cs)) ∧
        m = signed negative (valueFrom n cs) := by
  induction cs generalizing n with
  | nil =>
    simp only [List.foldlM_nil, pure, Except.pure, Except.ok.injEq, List.not_mem_nil,
      false_implies, implies_true, ne_eq, not_true_eq_false, true_and, valueFrom, List.foldl_nil]
    exact eq_comm
  | cons c cs ih =>
    have hvalue : valueFrom n (c :: cs) = valueFrom (10 * n + (c.toNat - '0'.toNat)) cs := rfl
    rw [List.foldlM_cons, List.forall_mem_cons, hvalue]
    constructor
    · intro h
      cases hpush : push r negative (signed negative n) c with
      | error why => rw [hpush] at h; cases h
      | ok k =>
        obtain ⟨hc, hfits, rfl⟩ := push_eq_ok_iff.1 hpush
        rw [hpush] at h
        obtain ⟨hcs, hlast, rfl⟩ := ih.1 h
        refine ⟨⟨hc, hcs⟩, fun _ => ?_, rfl⟩
        by_cases hnil : cs = []
        · subst hnil
          exact hfits
        · exact hlast hnil
    · rintro ⟨⟨hc, hcs⟩, hfits, rfl⟩
      have hfits := hfits (List.cons_ne_nil c cs)
      -- what the digits come to in the end bounds what they come to on the way
      rw [push_eq_ok_iff.2 ⟨hc, hfits.mono (le_valueFrom _ cs), rfl⟩]
      exact ih.2 ⟨hcs, fun _ => hfits, rfl⟩

/-- A row of digits is read exactly if it is not empty and its number fits. -/
theorem digits_eq_ok_iff {r : Range} {negative : Bool} {cs : List Char} {m : Int} :
    digits r negative cs = .ok m ↔
      IsDigits cs ∧ r.Fits negative (valueFrom 0 cs) ∧ m = signed negative (valueFrom 0 cs) := by
  cases cs with
  | nil => exact iff_of_false nofun fun h => h.1.1 rfl
  | cons c cs =>
    have hzero : (0 : Int) = signed negative 0 := by cases negative <;> rfl
    rw [digits, hzero, foldlM_push_eq_ok_iff, IsDigits, and_assoc,
      and_iff_right (List.cons_ne_nil c cs)]
    simp only [ne_eq, reduceCtorEq, not_false_eq_true, true_implies]
    exact nofun

/-! ### The whole text -/

/-- Around zero a number with a sign can leave a range on one side only. -/
theorem Range.fits_iff {r : Range} (hleast : r.least ≤ 0) (hgreatest : 0 ≤ r.greatest)
    (negative : Bool) (n : Nat) : r.Fits negative n ↔ r.Holds (signed negative n) := by
  cases negative
  · simp only [Fits, Holds, signed, Bool.false_eq_true, if_false]
    omega
  · simp only [Fits, Holds, signed, if_true]
    omega

/-- For a range around zero: a text is read as an integer exactly if it denotes the integer and the
range holds it. Without negative numbers in the range there is no minus sign, not even for zero. -/
theorem parse_eq_ok_iff {r : Range} (hleast : r.least ≤ 0) (hgreatest : 0 ≤ r.greatest)
    {cs : List Char} {n : Int} :
    parse r cs = .ok n ↔
      Denotes cs n ∧ r.Holds n ∧ (cs.head? = some '-' → r.least < 0) := by
  have hdigits : ∀ {negative cs}, digits r negative cs = .ok n ↔
      IsDigits cs ∧ r.Holds n ∧ n = signed negative (valueFrom 0 cs) := by
    intro negative cs
    rw [digits_eq_ok_iff, Range.fits_iff hleast hgreatest]
    refine and_congr_right fun _ => and_congr_left ?_
    rintro rfl
    exact Iff.rfl
  unfold parse
  split
  next =>
    refine iff_of_false nofun ?_
    rintro ⟨hdenotes, -⟩
    cases hdenotes with
    | bare h => exact h.1 rfl
  next cs =>
    rw [hdigits]
    constructor
    · rintro ⟨h, hholds, rfl⟩
      exact ⟨.plus h, hholds, fun hhead => by cases hhead⟩
    · rintro ⟨hdenotes, hholds, -⟩
      cases hdenotes with
      | bare h => exact absurd h (not_isDigits_of_sign rfl cs)
      | plus h => exact ⟨h, hholds, rfl⟩
  next cs =>
    split
    next hneg =>
      rw [hdigits]
      constructor
      · rintro ⟨h, hholds, rfl⟩
        exact ⟨.minus h, hholds, fun _ => hneg⟩
      · rintro ⟨hdenotes, hholds, -⟩
        cases hdenotes with
        | bare h => exact absurd h (not_isDigits_of_sign rfl cs)
        | minus h => exact ⟨h, hholds, rfl⟩
    next hneg => exact iff_of_false nofun fun h => hneg (h.2.2 rfl)
  next hnil hplus hminus =>
    rw [hdigits]
    constructor
    · rintro ⟨h, hholds, rfl⟩
      refine ⟨.bare h, hholds, fun hhead => ?_⟩
      obtain ⟨cs', rfl⟩ := List.head?_eq_some_iff.1 hhead
      exact absurd rfl (hminus cs')
    · rintro ⟨hdenotes, hholds, -⟩
      cases hdenotes with
      | bare h => exact ⟨h, hholds, rfl⟩
      | plus h => exact absurd rfl (hplus _)
      | minus h => exact absurd rfl (hminus _)

end Assay.Numeral
