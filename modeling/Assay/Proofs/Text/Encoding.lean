import Assay.Proofs.Text.Utf8
import Mathlib.Data.List.Basic

/-!
# Text — well-formed bytes are those of their text

Bytes that hold a text are the bytes of that text (`encode_of_decode?`), so no other bytes hold it
(`decode?_inj`), and it is shown as it is (`decodeLossy_of_decode?`).

A character under way has been begun by some bytes. `Begun.IsBegunBy` says of these that any bytes
which finish the character make up its encoding with them. A first byte has this property
(`isBegunBy_of_lead`), and a byte in the middle hands it on.
-/

namespace Assay.Text.Utf8

/-! ### A character under way -/

/-- The value of a character once some bytes more are read. -/
def valueWith (v : Nat) (bs : Bytes) : Nat := bs.foldl (fun v b => v * 0x40 + b.toNat % 0x40) v

/-- Whether the bytes of a character under way are `front`: what may finish it makes up the encoding
of a character behind them. -/
def Begun.IsBegunBy (s : Begun) (front : Bytes) : Prop :=
  ∀ b rest, s.low ≤ b → b ≤ s.high → rest.length = s.beyond →
    (∀ x ∈ rest, 0x80 ≤ x ∧ x ≤ 0xBF) →
    String.utf8EncodeChar (Char.ofNat (valueWith s.value (b :: rest))) = front ++ b :: rest

theorem utf8EncodeChar_of_lead {b : UInt8} {c : Char} (h : lead b = .whole c) :
    String.utf8EncodeChar c = [b] := by
  unfold lead at h
  split_ifs at h with hb
  have hlow : b.toNat < 0x80 := UInt8.lt_iff_toNat_lt.1 hb
  have hn : (Char.ofNat b.toNat).val.toNat = b.toNat := toNat_ofNat (.inl (by omega))
  rw [← Lead.whole.inj h]
  unfold String.utf8EncodeChar
  simp only [hn, if_pos (show b.toNat ≤ 127 by omega), UInt8.ofNat_toNat]

theorem utf8EncodeChar_two {n : Nat} {a b : UInt8} (hlow : 0x80 ≤ n) (hhigh : n < 0x800)
    (ha : a.toNat = 0xC0 + n / 0x40) (hb : b.toNat = 0x80 + n % 0x40) :
    String.utf8EncodeChar (Char.ofNat n) = [a, b] := by
  have hn : (Char.ofNat n).val.toNat = n := toNat_ofNat (.inl (by omega))
  unfold String.utf8EncodeChar
  simp only [hn, if_neg (show ¬ n ≤ 127 by omega), if_pos (show n ≤ 2047 by omega),
    List.cons.injEq, UInt8.ofNat_eq_iff_mod_eq_toNat, and_true]
  omega

theorem utf8EncodeChar_three {n : Nat} {a b c : UInt8} (hlow : 0x800 ≤ n) (hhigh : n < 0x10000)
    (hvalid : n.isValidChar) (ha : a.toNat = 0xE0 + n / 0x1000)
    (hb : b.toNat = 0x80 + n / 0x40 % 0x40) (hc : c.toNat = 0x80 + n % 0x40) :
    String.utf8EncodeChar (Char.ofNat n) = [a, b, c] := by
  have hn : (Char.ofNat n).val.toNat = n := toNat_ofNat hvalid
  unfold String.utf8EncodeChar
  simp only [hn, if_neg (show ¬ n ≤ 127 by omega), if_neg (show ¬ n ≤ 2047 by omega),
    if_pos (show n ≤ 65535 by omega), List.cons.injEq, UInt8.ofNat_eq_iff_mod_eq_toNat,
    and_true]
  omega

theorem utf8EncodeChar_four {n : Nat} {a b c d : UInt8} (hlow : 0x10000 ≤ n) (hhigh : n < 0x110000)
    (ha : a.toNat = 0xF0 + n / 0x40000) (hb : b.toNat = 0x80 + n / 0x1000 % 0x40)
    (hc : c.toNat = 0x80 + n / 0x40 % 0x40) (hd : d.toNat = 0x80 + n % 0x40) :
    String.utf8EncodeChar (Char.ofNat n) = [a, b, c, d] := by
  have hn : (Char.ofNat n).val.toNat = n := toNat_ofNat (.inr ⟨by omega, hhigh⟩)
  unfold String.utf8EncodeChar
  simp only [hn, if_neg (show ¬ n ≤ 127 by omega), if_neg (show ¬ n ≤ 2047 by omega),
    if_neg (show ¬ n ≤ 65535 by omega), List.cons.injEq, UInt8.ofNat_eq_iff_mod_eq_toNat,
    and_true]
  omega

/-- A byte that goes on with a character. -/
theorem toNat_of_mem {bs : Bytes} (h : ∀ x ∈ bs, 0x80 ≤ x ∧ x ≤ 0xBF) :
    ∀ x ∈ bs, 0x80 ≤ x.toNat ∧ x.toNat ≤ 0xBF := fun x hx =>
  ⟨UInt8.le_iff_toNat_le.1 (h x hx).1, UInt8.le_iff_toNat_le.1 (h x hx).2⟩

theorem isBegunBy_two {a : UInt8} (hlow : 0xC2 ≤ a.toNat) (hhigh : a.toNat < 0xE0) :
    Begun.IsBegunBy ⟨0, 0x80, 0xBF, a.toNat % 0x20⟩ [a] := by
  intro b rest hb hb' hlen _
  obtain rfl := List.length_eq_zero_iff.1 hlen
  have hb : 0x80 ≤ b.toNat := UInt8.le_iff_toNat_le.1 hb
  have hb' : b.toNat ≤ 0xBF := UInt8.le_iff_toNat_le.1 hb'
  have hvalue : valueWith (a.toNat % 0x20) [b] = (a.toNat - 0xC0) * 0x40 + (b.toNat - 0x80) := by
    simp only [valueWith, List.foldl_cons, List.foldl_nil]
    omega
  rw [hvalue]
  exact utf8EncodeChar_two (by omega) (by omega) (by omega) (by omega)

/-- The ranges of the second byte leave out what fewer bytes encode, and surrogates. -/
theorem isBegunBy_three {a low high : UInt8} {v : Nat} (hv : v = a.toNat % 0x10)
    (ha : 0xE0 ≤ a.toNat) (ha' : a.toNat < 0xF0)
    (hlow : 0x80 ≤ low.toNat) (hhigh : high.toNat ≤ 0xBF)
    (hlong : a.toNat = 0xE0 → 0xA0 ≤ low.toNat) (hvalid : a.toNat = 0xED → high.toNat ≤ 0x9F) :
    Begun.IsBegunBy ⟨1, low, high, v⟩ [a] := by
  intro b rest hb hb' hlen hrest
  subst hv
  obtain ⟨c, rfl⟩ := List.length_eq_one_iff.1 hlen
  have hb : low.toNat ≤ b.toNat := UInt8.le_iff_toNat_le.1 hb
  have hb' : b.toNat ≤ high.toNat := UInt8.le_iff_toNat_le.1 hb'
  obtain ⟨hc, hc'⟩ := toNat_of_mem hrest c (by simp)
  have hvalue : valueWith (a.toNat % 0x10) [b, c] =
      (a.toNat - 0xE0) * 0x1000 + (b.toNat - 0x80) * 0x40 + (c.toNat - 0x80) := by
    simp only [valueWith, List.foldl_cons, List.foldl_nil]
    omega
  rw [hvalue]
  refine utf8EncodeChar_three (by omega) (by omega) ?_ (by omega) (by omega) (by omega)
  by_cases hsurrogates : a.toNat ≤ 0xED
  · exact .inl (by omega)
  · exact .inr ⟨by omega, by omega⟩

/-- The ranges of the second byte leave out what fewer bytes encode, and values that are too
large. -/
theorem isBegunBy_four {a low high : UInt8} {v : Nat} (hv : v = a.toNat % 0x08)
    (ha : 0xF0 ≤ a.toNat) (ha' : a.toNat ≤ 0xF4)
    (hlow : 0x80 ≤ low.toNat) (hhigh : high.toNat ≤ 0xBF)
    (hlong : a.toNat = 0xF0 → 0x90 ≤ low.toNat) (hvalid : a.toNat = 0xF4 → high.toNat ≤ 0x8F) :
    Begun.IsBegunBy ⟨2, low, high, v⟩ [a] := by
  intro b rest hb hb' hlen hrest
  subst hv
  obtain ⟨c, d, rfl⟩ := List.length_eq_two.1 hlen
  have hb : low.toNat ≤ b.toNat := UInt8.le_iff_toNat_le.1 hb
  have hb' : b.toNat ≤ high.toNat := UInt8.le_iff_toNat_le.1 hb'
  obtain ⟨hc, hc'⟩ := toNat_of_mem hrest c (by simp)
  obtain ⟨hd, hd'⟩ := toNat_of_mem hrest d (by simp)
  have hvalue : valueWith (a.toNat % 0x08) [b, c, d] = (a.toNat - 0xF0) * 0x40000 +
      (b.toNat - 0x80) * 0x1000 + (c.toNat - 0x80) * 0x40 + (d.toNat - 0x80) := by
    simp only [valueWith, List.foldl_cons, List.foldl_nil]
    omega
  rw [hvalue]
  exact utf8EncodeChar_four (by omega) (by omega) (by omega) (by omega) (by omega) (by omega)

/-- A first byte begins a character of its own length. -/
theorem isBegunBy_of_lead {a : UInt8} {s : Begun} (h : lead a = .begins s) : s.IsBegunBy [a] := by
  have hlt : ∀ {x : UInt8}, a < x → a.toNat < x.toNat := UInt8.lt_iff_toNat_lt.1
  have hle : ∀ {x : UInt8}, ¬ a < x → x.toNat ≤ a.toNat := fun hx =>
    Nat.not_lt.1 fun hn => hx (UInt8.lt_iff_toNat_lt.2 hn)
  have hne : ∀ {x : UInt8}, a ≠ x → a.toNat ≠ x.toNat := fun hx e => hx (UInt8.toNat_inj.1 e)
  unfold lead at h
  split_ifs at h with h80 hC2 hE0 h3 hED hF0 h4 hF4 hlast
  · cases h
    exact isBegunBy_two (hle hC2) (hlt hE0)
  · cases h
    subst h3
    exact isBegunBy_three rfl (by decide) (by decide) (by decide) (by decide)
      (by decide) (by decide)
  · cases h
    subst hED
    exact isBegunBy_three rfl (by decide) (by decide) (by decide) (by decide)
      (by decide) (by decide)
  · cases h
    exact isBegunBy_three rfl (hle hE0) (hlt hF0) (by decide) (by decide)
      (fun e => absurd e (hne h3)) (fun e => absurd e (hne hED))
  · cases h
    subst h4
    exact isBegunBy_four rfl (by decide) (by decide) (by decide) (by decide)
      (by decide) (by decide)
  · cases h
    have hbelow : a.toNat < 0xF4 := hlt hF4
    exact isBegunBy_four rfl (hle hF0) (Nat.le_of_lt hbelow) (by decide) (by decide)
      (fun e => absurd e (hne h4)) (fun e => absurd e (Nat.ne_of_lt hbelow))
  · cases h
    subst hlast
    exact isBegunBy_four rfl (by decide) (by decide) (by decide) (by decide)
      (by decide) (by decide)

/-- A byte in the middle of a character leaves one less to come. -/
theorem Begun.IsBegunBy.next {s : Begun} {front : Bytes} (h : s.IsBegunBy front) {b : UInt8}
    (hlow : s.low ≤ b) (hhigh : b ≤ s.high) {n : Nat} (hbeyond : s.beyond = n + 1) :
    Begun.IsBegunBy ⟨n, 0x80, 0xBF, s.value * 0x40 + b.toNat % 0x40⟩ (front ++ [b]) := by
  intro c rest hc hc' hlen hrest
  have hwhole := h b (c :: rest) hlow hhigh (by rw [hbeyond, List.length_cons, hlen])
    (List.forall_mem_cons.2 ⟨⟨hc, hc'⟩, hrest⟩)
  rw [List.append_assoc]
  exact hwhole

/-! ### All bytes -/

/-- What a byte adds where a character may start. -/
theorem unitsBehind_none_cons (b : UInt8) (bs : Bytes) :
    unitsBehind none (b :: bs) =
      match lead b with
      | .whole c  => some c :: unitsBehind none bs
      | .begins s => unitsBehind (some s) bs
      | .stray    => none :: unitsBehind none bs := by
  rw [unitsBehind, List.foldl_cons, Reading.push]
  dsimp only
  rw [Reading.start]
  cases lead b with
  | whole c => exact units_foldl_push bs [some c] none
  | begins s => rfl
  | stray => exact units_foldl_push bs [none] none

/-- What a byte adds to a character under way. -/
theorem unitsBehind_some_cons (s : Begun) (b : UInt8) (bs : Bytes) :
    unitsBehind (some s) (b :: bs) =
      if s.low ≤ b ∧ b ≤ s.high then
        match s.beyond with
        | 0     => some (Char.ofNat (s.value * 0x40 + b.toNat % 0x40)) :: unitsBehind none bs
        | n + 1 => unitsBehind (some ⟨n, 0x80, 0xBF, s.value * 0x40 + b.toNat % 0x40⟩) bs
      else none :: unitsBehind none (b :: bs) := by
  obtain ⟨beyond, low, high, value⟩ := s
  rw [unitsBehind, List.foldl_cons, Reading.push]
  dsimp only
  split
  next =>
    cases beyond with
    | zero => exact units_foldl_push bs [some _] none
    | succ n => rfl
  next =>
    -- the byte is read again behind what is left unfinished
    exact units_foldl_push (b :: bs) [none] none

/-- Bytes behind a character under way that hold some characters encode them together with what is
in front of them. -/
theorem flatMap_of_unitsBehind (begun : Option Begun) (front : Bytes) {bs : Bytes} {cs : List Char}
    (hbegun : begun.elim (front = []) (·.IsBegunBy front))
    (h : unitsBehind begun bs = cs.map some) :
    cs.flatMap String.utf8EncodeChar = front ++ bs := by
  induction bs generalizing begun front cs with
  | nil =>
    cases begun with
    | none =>
      obtain rfl := List.map_eq_nil_iff.1 h.symm
      rw [show front = [] from hbegun]
      rfl
    | some s =>
      obtain ⟨c, _, _, hc, -⟩ := List.map_eq_cons_iff.1 h.symm
      cases hc
  | cons b bs ih =>
    cases begun with
    | none =>
      obtain rfl : front = [] := hbegun
      rw [unitsBehind_none_cons] at h
      split at h
      next c hlead =>
        obtain ⟨_, cs', rfl, ⟨⟩, htail⟩ := List.map_eq_cons_iff.1 h.symm
        rw [List.flatMap_cons, ih none [] rfl htail.symm, utf8EncodeChar_of_lead hlead]
        rfl
      next s hlead => exact ih (some s) [b] (isBegunBy_of_lead hlead) h
      next hlead =>
        obtain ⟨c, _, _, hc, -⟩ := List.map_eq_cons_iff.1 h.symm
        cases hc
    | some s =>
      have hs : s.IsBegunBy front := hbegun
      rw [unitsBehind_some_cons] at h
      split at h
      next hb =>
        split at h
        next hbeyond =>
          obtain ⟨_, cs', rfl, ⟨⟩, htail⟩ := List.map_eq_cons_iff.1 h.symm
          have hwhole := hs b [] hb.1 hb.2 hbeyond.symm (by simp)
          rw [valueWith, List.foldl_cons, List.foldl_nil] at hwhole
          rw [List.flatMap_cons, ih none [] rfl htail.symm, hwhole, List.append_assoc]
          rfl
        next n hbeyond =>
          rw [ih (some _) _ (hs.next hb.1 hb.2 hbeyond) h, List.append_assoc]
          rfl
      next hb =>
        obtain ⟨c, _, _, hc, -⟩ := List.map_eq_cons_iff.1 h.symm
        cases hc

/-- Bytes that hold a text hold its characters and nothing else. -/
theorem units_of_decode? {bs : Bytes} {s : String} (h : decode? bs = some s) :
    units bs = s.toList.map some := by
  have hwhole : ∀ us : List (Option Char), us.all (·.isSome) = true →
      us = (us.filterMap id).map some := by
    intro us hus
    induction us with
    | nil => rfl
    | cons u us ih =>
      rw [List.all_cons, Bool.and_eq_true] at hus
      obtain ⟨c, rfl⟩ := Option.isSome_iff_exists.1 hus.1
      exact congrArg (some c :: ·) (ih hus.2)
  unfold decode? at h
  dsimp only at h
  split at h
  next hall =>
    rw [← Option.some.inj h, String.toList_ofList]
    exact hwhole _ hall
  next => cases h

/-- Bytes that hold a text are the bytes of it. -/
theorem encode_of_decode? {bs : Bytes} {s : String} (h : decode? bs = some s) : encode s = bs :=
  flatMap_of_unitsBehind none [] rfl (units_of_decode? h)

/-- Different bytes hold different texts. -/
theorem decode?_inj {as bs : Bytes} {s : String} (ha : decode? as = some s)
    (hb : decode? bs = some s) : as = bs := by
  rw [← encode_of_decode? ha, encode_of_decode? hb]

/-- A text is shown as it is. -/
theorem decodeLossy_of_decode? {bs : Bytes} {s : String} (h : decode? bs = some s) :
    decodeLossy bs = s := by
  rw [decodeLossy, units_of_decode? h, List.map_map]
  refine (congrArg String.ofList ?_).trans String.ofList_toList
  exact List.map_id'' (fun _ => rfl) _

end Assay.Text.Utf8
