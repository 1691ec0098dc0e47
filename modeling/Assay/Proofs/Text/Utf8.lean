import Assay.Text.Utf8
import Mathlib.Tactic.SplitIfs

/-!
# Text — decoded bytes

Bytes that are decoded with replacements keep the digits in front: a text begins with a digit
exactly if its bytes do (`shown_digit_iff`). A byte below 0x80 is a character by itself
(`units_cons_whole`); whatever the others come to, finished or not, is no such character, for the
second bytes that may follow leave out all over-long forms.

No character goes across such a byte either: bytes can be cut in front of it and decoded apart
(`shown_append`).
-/

namespace Assay.Text.Utf8

/-! ### One byte after another -/

/-- The units of some bytes behind a character under way. -/
def unitsBehind (begun : Option Begun) (bs : Bytes) : List (Option Char) :=
  (bs.foldl Reading.push ⟨[], begun⟩).units

/-- To read a byte does not touch the units read before. -/
theorem push_append (done base : List (Option Char)) (begun : Option Begun) (b : UInt8) :
    Reading.push ⟨done ++ base, begun⟩ b =
      ⟨(Reading.push ⟨done, begun⟩ b).done ++ base, (Reading.push ⟨done, begun⟩ b).begun⟩ := by
  have hstart : ∀ us : List (Option Char), Reading.start (us ++ base) b =
      ⟨(Reading.start us b).done ++ base, (Reading.start us b).begun⟩ := fun us => by
    unfold Reading.start
    split <;> rfl
  unfold Reading.push
  cases begun with
  | none => exact hstart done
  | some s =>
    simp only
    split
    · split <;> rfl
    · exact hstart (none :: done)

/-- Byte by byte the same is read as from the whole row. -/
theorem units_foldl_push (bs : Bytes) (done : List (Option Char)) (begun : Option Begun) :
    (bs.foldl Reading.push ⟨done, begun⟩).units = done.reverse ++ unitsBehind begun bs := by
  induction bs generalizing done begun with
  | nil => cases begun <;> simp [unitsBehind, Reading.units]
  | cons b bs ih =>
    have hpush := push_append [] done begun b
    rw [List.nil_append] at hpush
    rw [unitsBehind, List.foldl_cons, List.foldl_cons, hpush, ih, ih, List.reverse_append,
      List.append_assoc]

/-- A byte below 0x80 is a character by itself. -/
theorem units_cons_whole {b : UInt8} (h : b < 0x80) (bs : Bytes) :
    units (b :: bs) = some (Char.ofNat b.toNat) :: units bs := by
  have hlead : lead b = .whole (Char.ofNat b.toNat) := by rw [lead, if_pos h]
  have hpush : Reading.push ⟨[], none⟩ b = ⟨[some (Char.ofNat b.toNat)], none⟩ := by
    simp only [Reading.push, Reading.start, hlead]
  rw [units, List.foldl_cons, hpush, units_foldl_push]
  rfl

/-! ### Characters of several bytes -/

/-- Whether a character under way can only become one of at least 0x80: enough has been read, or
the next byte adds enough. -/
def Begun.IsWide (s : Begun) : Prop :=
  if s.beyond = 0 then 2 ≤ s.value else 1 ≤ s.value ∨ 0x90 ≤ s.low ∧ s.high ≤ 0xBF

/-- What a lead byte begins can only become a character of several bytes. -/
theorem isWide_of_lead {b : UInt8} {s : Begun} (h : lead b = .begins s) : s.IsWide := by
  have hlt : ∀ {c : UInt8}, b < c → b.toNat < c.toNat := UInt8.lt_iff_toNat_lt.1
  have hle : ∀ {c : UInt8}, ¬ b < c → c.toNat ≤ b.toNat := fun hc =>
    Nat.not_lt.1 fun hn => hc (UInt8.lt_iff_toNat_lt.2 hn)
  have hne : ∀ {c : UInt8}, b ≠ c → b.toNat ≠ c.toNat := fun hc e => hc (UInt8.toNat_inj.1 e)
  unfold lead at h
  split_ifs at h with h80 hC2 hE0 h3 hED hF0 h4 hF4 hlast
  · cases h
    have hlow : 0xC2 ≤ b.toNat := hle hC2
    have hhigh : b.toNat < 0xE0 := hlt hE0
    show 2 ≤ b.toNat % 0x20
    omega
  · cases h
    exact .inr ⟨by decide, by decide⟩
  · cases h
    exact .inl (by decide)
  · cases h
    have hlow : 0xE0 ≤ b.toNat := hle hE0
    have hmore : b.toNat ≠ 0xE0 := hne h3
    have hhigh : b.toNat < 0xF0 := hlt hF0
    refine .inl ?_
    show 1 ≤ b.toNat % 0x10
    omega
  · cases h
    exact .inr ⟨by decide, by decide⟩
  · cases h
    have hlow : 0xF0 ≤ b.toNat := hle hF0
    have hmore : b.toNat ≠ 0xF0 := hne h4
    have hhigh : b.toNat < 0xF4 := hlt hF4
    refine .inl ?_
    show 1 ≤ b.toNat % 0x08
    omega
  · cases h
    exact .inl (by decide)

theorem toNat_ofNat {n : Nat} (h : n.isValidChar) : (Char.ofNat n).toNat = n := by
  rw [Char.ofNat, dif_pos h]
  rfl

/-- A value of at least 0x80 is no digit, also where it is no character at all. -/
theorem not_isDigit_ofNat {n : Nat} (h : 0x80 ≤ n) : (Char.ofNat n).isDigit = false := by
  by_cases hn : n.isValidChar
  · rw [Bool.eq_false_iff, Ne, Char.isDigit_iff_toNat, toNat_ofNat hn]
    exact fun hle => absurd (Nat.le_trans h hle.2) (by decide)
  · rw [Char.ofNat, dif_neg hn]
    rfl

/-- No digit comes first out of a character under way. -/
theorem head_unitsBehind {s : Begun} (hs : s.IsWide) (bs : Bytes) {c : Char}
    (h : (unitsBehind (some s) bs).head? = some (some c)) : c.isDigit = false := by
  induction bs generalizing s with
  | nil => cases h
  | cons b bs ih =>
    rw [unitsBehind, List.foldl_cons, Reading.push] at h
    simp only at h
    split at h
    next hb =>
      split at h
      next hbeyond =>
        rw [units_foldl_push] at h
        obtain rfl := Option.some.inj (Option.some.inj h)
        rw [Begun.IsWide, if_pos hbeyond] at hs
        exact not_isDigit_ofNat (by omega)
      next k hbeyond =>
        -- the value so far is shifted by six bits, or the byte is high enough by itself
        refine ih ?_ h
        rw [Begun.IsWide, if_neg (by omega)] at hs
        have hwide : 2 ≤ s.value * 0x40 + b.toNat % 0x40 := by
          obtain hs | ⟨hlow, hhigh⟩ := hs
          · omega
          · have hlo : 0x90 ≤ b.toNat := UInt8.le_iff_toNat_le.1 (UInt8.le_trans hlow hb.1)
            have hhi : b.toNat ≤ 0xBF := UInt8.le_iff_toNat_le.1 (UInt8.le_trans hb.2 hhigh)
            omega
        rw [Begun.IsWide]
        split
        · exact hwide
        · exact .inl (Nat.le_of_succ_le hwide)
    next hb =>
      rw [Reading.start] at h
      split at h
      all_goals
        rw [units_foldl_push] at h
        cases h

/-! ### Digits -/

/-- Whether a byte is an ASCII digit. -/
def IsDigit (b : UInt8) : Prop := 0x30 ≤ b ∧ b ≤ 0x39

/-- A character of one byte is a digit exactly if its byte is. -/
theorem isDigit_ofNat {b : UInt8} (h : b < 0x80) :
    (Char.ofNat b.toNat).isDigit = true ↔ IsDigit b := by
  have hb : b.toNat < 0x80 := UInt8.lt_iff_toNat_lt.1 h
  rw [Char.isDigit_iff_toNat, toNat_ofNat (.inl (Nat.lt_trans hb (by decide)))]
  rw [IsDigit, UInt8.le_iff_toNat_le, UInt8.le_iff_toNat_le]
  exact Iff.rfl

/-- What begins with a byte of at least 0x80 does not begin with a digit. -/
theorem head_units_of_le {b : UInt8} (h : ¬ b < 0x80) (bs : Bytes) {c : Char}
    (hc : (units (b :: bs)).head? = some (some c)) : c.isDigit = false := by
  rw [units, List.foldl_cons, Reading.push, Reading.start] at hc
  simp only at hc
  split at hc
  next c' hlead =>
    rw [lead, if_neg h] at hlead
    split_ifs at hlead
  next s hlead => exact head_unitsBehind (isWide_of_lead hlead) bs hc
  next hlead =>
    rw [units_foldl_push] at hc
    cases hc

/-- The characters of a decoded text. -/
def shown (bs : Bytes) : List Char := (units bs).map (·.getD '\uFFFD')

/-- The decoded text has the characters that are shown. -/
theorem toList_decodeLossy (bs : Bytes) : (decodeLossy bs).toList = shown bs :=
  String.toList_ofList

/-- A text begins with a digit exactly if its bytes do. -/
theorem shown_digit_iff {bs : Bytes} {l : List Char} :
    (∃ c, shown bs = c :: l ∧ c.isDigit = true) ↔
      ∃ b rest, bs = b :: rest ∧ IsDigit b ∧ shown rest = l := by
  constructor
  · rintro ⟨c, hc, hd⟩
    cases bs with
    | nil => cases hc
    | cons b rest =>
      by_cases hb : b < 0x80
      · rw [shown, units_cons_whole hb, List.map_cons] at hc
        obtain ⟨rfl, rfl⟩ := List.cons.inj hc
        exact ⟨b, rest, rfl, (isDigit_ofNat hb).1 hd, rfl⟩
      · obtain ⟨u, us, hu, rfl, -⟩ := List.map_eq_cons_iff.1 hc
        cases u with
        | none => cases hd
        | some c' =>
          have hno : c'.isDigit = false := head_units_of_le hb rest (by rw [hu]; rfl)
          cases hno.symm.trans hd
  · rintro ⟨b, rest, rfl, hb, rfl⟩
    have hlow : b < 0x80 := UInt8.lt_of_le_of_lt hb.2 (by decide)
    refine ⟨Char.ofNat b.toNat, ?_, (isDigit_ofNat hlow).2 hb⟩
    rw [shown, units_cons_whole hlow]
    rfl

/-! ### Where a text can be cut -/

/-- Whether the next byte of a character under way must be at least 0x80. -/
def Reading.IsHigh (r : Reading) : Prop := ∀ s, r.begun = some s → 0x80 ≤ s.low

theorem low_of_lead {b : UInt8} {s : Begun} (h : lead b = .begins s) : 0x80 ≤ s.low := by
  unfold lead at h
  split_ifs at h
  all_goals
    cases h
    dsimp only
    decide

theorem Reading.isHigh_start (done : List (Option Char)) (b : UInt8) :
    (Reading.start done b).IsHigh := by
  rw [Reading.start]
  split
  next => exact nofun
  next s hlead =>
    rintro _ ⟨⟩
    exact low_of_lead hlead
  next => exact nofun

/-- Whatever byte is read, a character under way does not go on with a low one. -/
theorem Reading.isHigh_push (r : Reading) (b : UInt8) : (r.push b).IsHigh := by
  rw [Reading.push]
  split
  next => exact isHigh_start _ b
  next s _ =>
    split
    next =>
      simp only
      split
      next => exact nofun
      next =>
        rintro _ ⟨⟩
        exact UInt8.le_refl _
    next => exact isHigh_start _ b

theorem Reading.isHigh_foldl_push {r : Reading} (h : r.IsHigh) (bs : Bytes) :
    (bs.foldl Reading.push r).IsHigh := by
  induction bs generalizing r with
  | nil => exact h
  | cons b bs ih => exact ih (isHigh_push r b)

/-- A byte below 0x80 ends a character under way. -/
theorem Reading.push_of_lt {r : Reading} (h : r.IsHigh) {b : UInt8} (hb : b < 0x80) :
    r.push b = ⟨some (Char.ofNat b.toNat) :: r.units.reverse, none⟩ := by
  have hlead : lead b = .whole (Char.ofNat b.toNat) := by rw [lead, if_pos hb]
  obtain ⟨done, begun⟩ := r
  cases begun with
  | none => simp only [push, start, hlead, units, List.reverse_reverse]
  | some s =>
    have hlow : ¬ (s.low ≤ b ∧ b ≤ s.high) := fun hle =>
      UInt8.lt_irrefl _ (UInt8.lt_of_lt_of_le hb (UInt8.le_trans (h s rfl) hle.1))
    simp only [push, if_neg hlow, start, hlead, units, List.reverse_reverse]

/-- In front of a byte below 0x80 bytes can be cut: no character goes across. -/
theorem units_append {b : UInt8} (hb : b < 0x80) (as bs : Bytes) :
    units (as ++ b :: bs) = units as ++ units (b :: bs) := by
  have hnew : (⟨[], none⟩ : Reading).IsHigh := by
    intro s h
    cases h
  have hhigh := Reading.isHigh_foldl_push hnew as
  rw [units_cons_whole hb, units, List.foldl_append, List.foldl_cons, Reading.push_of_lt hhigh hb,
    units_foldl_push, List.reverse_cons, List.reverse_reverse, List.append_assoc]
  rfl

/-- A low byte in front is shown as its own character. -/
theorem shown_cons_of_lt {b : UInt8} (hb : b < 0x80) (bs : Bytes) :
    shown (b :: bs) = Char.ofNat b.toNat :: shown bs := by
  rw [shown, units_cons_whole hb]
  rfl

/-- Bytes below 0x80 are as many characters. -/
theorem length_decodeLossy_of_lt {bs : Bytes} (h : ∀ b ∈ bs, b < 0x80) :
    (decodeLossy bs).length = bs.length := by
  rw [← String.length_toList, toList_decodeLossy]
  induction bs with
  | nil => rfl
  | cons b bs ih =>
    obtain ⟨hb, hbs⟩ := List.forall_mem_cons.1 h
    rw [shown_cons_of_lt hb, List.length_cons, List.length_cons, ih hbs]

/-- A text can be cut in front of a low byte, whatever stands before it. -/
theorem shown_append {b : UInt8} (hb : b < 0x80) (as bs : Bytes) :
    shown (as ++ b :: bs) = shown as ++ shown (b :: bs) := by
  rw [shown, units_append hb, List.map_append]
  rfl

end Assay.Text.Utf8
