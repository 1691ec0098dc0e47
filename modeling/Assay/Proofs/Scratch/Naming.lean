import Assay.Proofs.Path.Steps
import Assay.Scratch

/-!
# Scratch — names and the ids in them

An id is twelve hexadecimal digits (`isId_encode_idOf`), so it holds neither of the bytes that names
and paths are put together with. A label becomes small letters, digits and hyphens
(`isNameChar_sanitize`), one for each character (`length_sanitize`). So a scratch directory's name is
a segment whatever its label (`isSegment_dirName`), and it mentions no other id than its own unless
its label does (`infix_of_infix_dirName`).
-/

namespace Assay

namespace Text.Utf8

/-- Texts behind each other are written behind each other. -/
theorem encode_append (s t : String) : encode (s ++ t) = encode s ++ encode t := by
  rw [encode, String.toList_append, List.flatMap_append]
  rfl

/-- No two texts are written alike. -/
theorem encode_injective {s t : String} (h : encode s = encode t) : s = t := by
  refine String.toByteArray_inj.1 ?_
  rw [← String.utf8Encode_toList, ← String.utf8Encode_toList]
  exact congrArg List.toByteArray h

/-- Characters below 0x80 are single bytes. -/
theorem utf8EncodeChar_of_lt {c : Char} (h : c.toNat < 0x80) :
    String.utf8EncodeChar c = [UInt8.ofNat c.toNat] := by
  rw [String.utf8EncodeChar]
  exact if_pos (Nat.le_of_lt_succ h)

/-- If all characters are written with one byte, what holds of these holds of all bytes. -/
theorem mem_encode_of_forall {P : UInt8 → Prop} {cs : List Char}
    (h : ∀ c ∈ cs, c.toNat < 0x80 ∧ P (UInt8.ofNat c.toNat)) :
    ∀ b ∈ encode (String.ofList cs), P b := by
  intro b hb
  rw [encode, String.toList_ofList, List.mem_flatMap] at hb
  obtain ⟨c, hc, hb⟩ := hb
  rw [utf8EncodeChar_of_lt (h c hc).1, List.mem_singleton] at hb
  exact hb ▸ (h c hc).2

/-- If all characters are written with one byte, there are as many bytes as characters. -/
theorem length_encode_of_forall {cs : List Char} (h : ∀ c ∈ cs, c.toNat < 0x80) :
    (encode (String.ofList cs)).length = cs.length := by
  rw [encode, String.toList_ofList, List.length_flatMap]
  induction cs with
  | nil => rfl
  | cons c cs ih =>
    obtain ⟨hc, hcs⟩ := List.forall_mem_cons.1 h
    rw [List.map_cons, List.sum_cons, ih hcs, utf8EncodeChar_of_lt hc, List.length_singleton,
      List.length_cons, Nat.add_comm]

end Text.Utf8

namespace Scratch

open Text.Utf8 (encode)

/-! ### Ids -/

/-- Whether a byte is a hexadecimal digit as ids have them. -/
def IsHex (b : UInt8) : Prop := 0x30 ≤ b ∧ b ≤ 0x39 ∨ 0x61 ≤ b ∧ b ≤ 0x66

instance (b : UInt8) : Decidable (IsHex b) := inferInstanceAs (Decidable (_ ∨ _))

/-- Whether some bytes are twelve hexadecimal digits. -/
structure IsId (x : Bytes) : Prop where
  length : x.length = 12
  hex : ∀ b ∈ x, IsHex b

theorem digitChar_hex : ∀ d < 16, (Nat.digitChar d).toNat < 0x80 ∧
    IsHex (UInt8.ofNat (Nat.digitChar d).toNat) := by decide

/-- Hexadecimal digits are digits and the first six small letters. -/
theorem toDigits_hex (n : Nat) : ∀ c ∈ Nat.toDigits 16 n, c.toNat < 0x80 ∧
    IsHex (UInt8.ofNat c.toNat) := by
  induction n using Nat.strongRecOn with
  | ind n ih =>
    rw [Nat.toDigits_eq_if (by decide)]
    split
    next hn =>
      intro c hc
      rw [List.mem_singleton.1 hc]
      exact digitChar_hex n hn
    next hn =>
      intro c hc
      obtain hc | hc := List.mem_append.1 hc
      · exact ih (n / 16) (Nat.div_lt_self (by omega) (by decide)) c hc
      · rw [List.mem_singleton.1 hc]
        exact digitChar_hex _ (Nat.mod_lt n (by decide))

/-- Whether a character is a hexadecimal digit as ids have them. -/
def IsHexChar (c : Char) : Prop := '0' ≤ c ∧ c ≤ '9' ∨ 'a' ≤ c ∧ c ≤ 'f'

instance (c : Char) : Decidable (IsHexChar c) := inferInstanceAs (Decidable (_ ∨ _))

/-- What holds of the first numbers as characters holds of the characters below. -/
theorem forall_char_lt {b : Nat} {P : Char → Prop} (h : ∀ n < b, P (Char.ofNat n)) {c : Char}
    (hc : c.toNat < b) : P c := by
  have hP := h c.toNat hc
  rwa [Char.ofNat_toNat] at hP

/-- A character whose byte is a hexadecimal digit is one. -/
theorem isHexChar_of_isHex {c : Char} (hc : c.toNat < 0x80) :
    IsHex (UInt8.ofNat c.toNat) → IsHexChar c :=
  forall_char_lt (P := fun c => IsHex (UInt8.ofNat c.toNat) → IsHexChar c) (by decide) hc

/-- The characters of an id. -/
theorem toList_idOf (n : Nat) : (idOf n).toList.length = 12 ∧
    ∀ c ∈ (idOf n).toList, c.toNat < 0x80 ∧ IsHex (UInt8.ofNat c.toNat) := by
  have hlen : (Nat.toDigits 16 (n % 0x1000000000000)).length ≤ 12 :=
    (Nat.length_toDigits_le_iff (by decide) (by decide)).2 (Nat.mod_lt n (by decide))
  rw [idOf, String.toList_ofList, List.length_append, List.length_replicate]
  refine ⟨by omega, fun c hc => ?_⟩
  obtain hc | hc := List.mem_append.1 hc
  · rw [List.eq_of_mem_replicate hc]
    decide
  · exact toDigits_hex _ c hc

/-- The id of a number is an id. -/
theorem isId_encode_idOf (n : Nat) : IsId (encode (idOf n)) := by
  obtain ⟨hlen, hall⟩ := toList_idOf n
  rw [← String.ofList_toList (s := idOf n)]
  refine ⟨?_, Text.Utf8.mem_encode_of_forall hall⟩
  rw [Text.Utf8.length_encode_of_forall fun c hc => (hall c hc).1, hlen]

namespace IsId

variable {x y : Bytes}

theorem not_mem (h : IsId x) {b : UInt8} (hb : ¬ IsHex b) : b ∉ x := fun hm => hb (h.hex b hm)

theorem slash_not_mem (h : IsId x) : Path.slash ∉ x := h.not_mem (by decide)

theorem hyphen_not_mem (h : IsId x) : 0x2D ∉ x := h.not_mem (by decide)

/-- An id is part of another only if it is the other. -/
theorem eq_of_infix (hx : IsId x) (hy : IsId y) (h : x <:+: y) : x = y :=
  h.eq_of_length (hx.length.trans hy.length.symm)

/-- What is too short or has other bytes all over does not mention an id. -/
theorem absent (h : IsId x) {b : Bytes}
    (hb : ∀ i ≤ b.length, 12 ≤ (b.drop i).length → ∃ u ∈ (b.drop i).take 12, ¬ IsHex u) :
    ¬ x <:+: b := by
  rintro ⟨p, q, rfl⟩
  have hdrop : (p ++ x ++ q).drop p.length = x ++ q := by
    rw [List.append_assoc, List.drop_left]
  have htake : (x ++ q).take 12 = x := by rw [← h.length, List.take_left]
  obtain ⟨u, hu, hhex⟩ := hb p.length (by simp only [List.length_append]; omega) (by
    rw [hdrop, List.length_append, h.length]
    omega)
  rw [hdrop, htake] at hu
  exact hhex (h.hex u hu)

end IsId

/-! ### Names -/

theorem toNat_lt_of_isAlphanum {c : Char} (h : c.isAlphanum = true) : c.toNat < 0x80 := by
  change (decide ('A'.val ≤ c.val ∧ c.val ≤ 'Z'.val) ||
    decide ('a'.val ≤ c.val) && decide (c.val ≤ 'z'.val) ||
    decide ('0'.val ≤ c.val) && decide (c.val ≤ '9'.val)) = true at h
  simp only [Bool.or_eq_true, decide_eq_true_eq, Bool.and_eq_true, UInt32.le_iff_toNat_le] at h
  have hZ : 'Z'.val.toNat = 90 := rfl
  have hz : 'z'.val.toNat = 122 := rfl
  have h9 : '9'.val.toNat = 57 := rfl
  show c.val.toNat < 0x80
  omega

/-- Whether a character may stand in a name: a small letter, a digit or a hyphen. -/
def IsNameChar (c : Char) : Prop := 'a' ≤ c ∧ c ≤ 'z' ∨ '0' ≤ c ∧ c ≤ '9' ∨ c = '-'

instance (c : Char) : Decidable (IsNameChar c) := inferInstanceAs (Decidable (_ ∨ _))

/-- The characters of a name are written with one byte each. -/
theorem IsNameChar.toNat_lt {c : Char} (h : IsNameChar c) : c.toNat < 0x80 := by
  have hle : ∀ {d : Char}, c ≤ d → c.toNat ≤ d.toNat := UInt32.le_iff_toNat_le.1
  obtain ⟨-, h⟩ | ⟨-, h⟩ | rfl := h
  · exact Nat.lt_of_le_of_lt (hle h) (by decide)
  · exact Nat.lt_of_le_of_lt (hle h) (by decide)
  · decide

theorem IsNameChar.ne_slash {c : Char} (h : IsNameChar c) : UInt8.ofNat c.toNat ≠ Path.slash :=
  forall_char_lt (P := fun c => IsNameChar c → UInt8.ofNat c.toNat ≠ Path.slash) (by decide)
    h.toNat_lt h

theorem IsNameChar.ne_zero {c : Char} (h : IsNameChar c) : UInt8.ofNat c.toNat ≠ 0 :=
  forall_char_lt (P := fun c => IsNameChar c → UInt8.ofNat c.toNat ≠ 0) (by decide) h.toNat_lt h

/-- A hexadecimal digit may stand in a name. -/
theorem IsHexChar.isNameChar {c : Char} (h : IsHexChar c) : IsNameChar c := by
  obtain h | ⟨hlow, hhigh⟩ := h
  · exact .inr (.inl h)
  · exact .inl ⟨hlow, UInt32.le_trans hhigh (by decide)⟩

/-- What letters and digits become in a name. -/
theorem isNameChar_toLower {c : Char} (h : c.isAlphanum = true) : IsNameChar c.toLower :=
  forall_char_lt (P := fun c => c.isAlphanum = true → IsNameChar c.toLower) (by decide)
    (toNat_lt_of_isAlphanum h) h

/-- In a sanitised label there is nothing but what may stand in a name. -/
theorem isNameChar_sanitize {label : String} {c : Char} (h : c ∈ (sanitize label).toList) :
    IsNameChar c := by
  rw [sanitize, String.toList_ofList] at h
  obtain ⟨d, -, rfl⟩ := List.mem_map.1 h
  split
  next hd => exact isNameChar_toLower hd
  next => exact .inr (.inr rfl)

/-- Each character of a label stands for one of the name. -/
theorem length_sanitize (label : String) : (sanitize label).toList.length = label.length := by
  rw [sanitize, String.toList_ofList, List.length_map, String.length_toList]

/-- In a sanitised label there is no slash, so it is no way. -/
theorem slash_not_mem_sanitize (label : String) : Path.slash ∉ encode (sanitize label) := by
  intro hm
  rw [← String.ofList_toList (s := sanitize label)] at hm
  refine Text.Utf8.mem_encode_of_forall (P := (· ≠ Path.slash)) (fun c hc => ?_) _ hm rfl
  have hname := isNameChar_sanitize hc
  exact ⟨hname.toNat_lt, hname.ne_slash⟩

/-- A directory's name is the sanitised label, a hyphen and the id. -/
theorem toList_dirName (label id : String) :
    (dirName label id).toList = (sanitize label).toList ++ '-' :: id.toList := by
  rw [dirName, String.toList_append, String.toList_append, List.append_assoc]
  rfl

/-- In a directory's name there is nothing but what may stand in a name. -/
theorem isNameChar_dirName {label : String} {k : Nat} {c : Char}
    (h : c ∈ (dirName label (idOf k)).toList) : IsNameChar c := by
  rw [toList_dirName] at h
  obtain h | h := List.mem_append.1 h
  · exact isNameChar_sanitize h
  · obtain rfl | h := List.mem_cons.1 h
    · exact .inr (.inr rfl)
    · obtain ⟨hlt, hhex⟩ := (toList_idOf k).2 c h
      exact (isHexChar_of_isHex hlt hhex).isNameChar

/-- In a directory's name there is no zero byte, so the system takes it. -/
theorem zero_not_mem_dirName (label : String) (k : Nat) : 0 ∉ encode (dirName label (idOf k)) := by
  intro hm
  rw [← String.ofList_toList (s := dirName label (idOf k))] at hm
  refine Text.Utf8.mem_encode_of_forall (P := (· ≠ 0)) (fun c hc => ?_) _ hm rfl
  have hname := isNameChar_dirName hc
  exact ⟨hname.toNat_lt, hname.ne_zero⟩

/-- The bytes of a name. -/
theorem encode_dirName (label id : String) :
    encode (dirName label id) = encode (sanitize label) ++ 0x2D :: encode id := by
  rw [dirName, Text.Utf8.encode_append, Text.Utf8.encode_append, List.append_assoc]
  rfl

/-- A name has a byte for each character of its label and thirteen more. -/
theorem length_encode_dirName (label : String) (k : Nat) :
    (encode (dirName label (idOf k))).length = label.length + 13 := by
  have hlabel : (encode (sanitize label)).length = label.length := by
    rw [← String.ofList_toList (s := sanitize label), Text.Utf8.length_encode_of_forall
      fun c hc => (isNameChar_sanitize hc).toNat_lt, length_sanitize]
  rw [encode_dirName, List.length_append, List.length_cons, hlabel, (isId_encode_idOf k).length]

/-- A name has a hyphen and no slash, so it stands for an entry wherever it is joined. -/
theorem isSegment_dirName {label id : String} (h : Path.slash ∉ encode id) :
    Path.IsSegment (encode (dirName label id)) := by
  have hhyphen : 0x2D ∈ encode (dirName label id) := by
    rw [encode_dirName]
    exact List.mem_append_right _ List.mem_cons_self
  refine ⟨List.ne_nil_of_mem hhyphen, fun he => ?_, fun he => ?_, fun hm => ?_⟩
  · rw [he] at hhyphen
    exact absurd hhyphen (by decide)
  · rw [he] at hhyphen
    exact absurd hhyphen (by decide)
  · rw [encode_dirName] at hm
    obtain hm | hm := List.mem_append.1 hm
    · exact slash_not_mem_sanitize label hm
    · obtain hm | hm := List.mem_cons.1 hm
      · exact absurd hm (by decide)
      · exact h hm

/-- A name mentions its own id, and another only if its label does. -/
theorem infix_of_infix_dirName {label id : String} {x : Bytes} (hx : IsId x)
    (hid : IsId (encode id)) (h : x <:+: encode (dirName label id)) :
    x <:+: encode (sanitize label) ∨ x = encode id := by
  rw [encode_dirName] at h
  exact (Path.infix_of_infix_separated hx.hyphen_not_mem h).imp_right (hx.eq_of_infix hid)

/-- A directory's name says its id. -/
theorem id_infix_dirName (label id : String) : encode id <:+: encode (dirName label id) := by
  rw [encode_dirName]
  exact (List.suffix_append_of_suffix (List.suffix_cons _ _)).isInfix

end Scratch

end Assay
