import Assay.Proofs.Path.Join

/-!
# Path — the steps to entries of directories

To join the name of an entry to the path of its directory adds one step (`steps_join`). The names
that the steps of a path enter are parts of the path (`infix_of_enter`), and what a joined path
mentions one of its two parts does (`infix_of_infix_join`).
-/

namespace Assay.Path

/-- The steps of a path, a slash at its end apart. -/
def way (p : Path) : List Step := p.segments.filterMap step?

/-- The steps of a path are its way, with a slash at the end or without. -/
theorem steps_eq (p : Path) :
    p.steps = p.way ∨ p.steps = p.way ++ [.slash] := by
  rw [steps, way]
  split
  · exact .inr rfl
  · exact .inl (List.append_nil _)

/-- A segment is one step into the entry of its name. -/
theorem step?_segment {n : Bytes} (h : IsSegment n) : step? n = some (.enter n) := by
  rw [step?, if_neg h.1, if_neg h.2.1, if_neg h.2.2.1]

@[simp] theorem way_empty : (⟨[]⟩ : Path).way = [] := by decide

/-- The name of an entry is one more step. -/
theorem way_join (p : Path) {n : Bytes} (h : IsSegment n) :
    (p.join ⟨n⟩).way = p.way ++ [.enter n] := by
  by_cases hp : p.bytes = []
  · obtain ⟨bytes⟩ := p
    obtain rfl : bytes = [] := hp
    have hjoin : (⟨[]⟩ : Path).join ⟨n⟩ = ⟨n⟩ := by
      rw [join, isAbsolute_name h]
      rfl
    rw [hjoin, way, segments_name h, way_empty]
    simp [step?_segment h]
  · obtain ⟨ss, ts, -, hts, hseg, hjoin⟩ := segments_join hp h
    have hnone : ts.filterMap step? = [] :=
      List.filterMap_eq_nil_iff.2 fun t ht => by rw [hts t ht]; rfl
    rw [way, way, hseg, hjoin, List.filterMap_append, List.filterMap_append, hnone, List.append_nil]
    simp [step?_segment h]

/-- A path that ends with a name does not end with a slash. -/
theorem getLast?_join (p : Path) {n : Bytes} (h : IsSegment n) :
    (p.join ⟨n⟩).bytes.getLast? ≠ some slash := by
  have hlast : (p.join ⟨n⟩).bytes.getLast? = n.getLast? := by
    rw [bytes_join (isAbsolute_name h)]
    split
    · exact List.getLast?_append_of_ne_nil _ h.1
    · rw [List.getLast?_append_of_ne_nil _ (List.cons_ne_nil slash n),
        List.getLast?_cons_of_ne_nil h.1]
  rw [hlast]
  exact fun he => h.2.2.2 (List.mem_of_getLast? he)

/-- A name behind a path is one more step. -/
theorem steps_join (p : Path) {n : Bytes} (h : IsSegment n) :
    (p.join ⟨n⟩).steps = p.way ++ [.enter n] := by
  have hlast : ((p.join ⟨n⟩).bytes.getLast? == some slash) = false :=
    beq_eq_false_iff_ne.2 (getLast?_join p h)
  rw [← way_join p h, steps, hlast]
  exact List.append_nil _

/-! ### What a path mentions -/

/-- Each of the parts stands in the whole. -/
theorem infix_of_mem_intercalate {s : Bytes} (a : UInt8) {ss : List Bytes} (h : s ∈ ss) :
    s <:+: [a].intercalate ss := by
  induction ss with
  | nil => cases h
  | cons c cs ih =>
    cases cs with
    | nil =>
      obtain rfl := List.mem_singleton.1 h
      have hsingle : [a].intercalate [s] = s := List.intercalate_singleton
      exact hsingle.symm ▸ List.infix_refl s
    | cons d ds =>
      rw [List.intercalate_cons_cons]
      obtain rfl | h := List.mem_cons.1 h
      · rw [List.append_assoc]
        exact (List.prefix_append _ _).isInfix
      · exact (ih h).trans (List.suffix_append _ _).isInfix

/-- A path says each of its segments. -/
theorem infix_of_mem_segments {p : Path} {s : Bytes} (h : s ∈ p.segments) : s <:+: p.bytes := by
  have hp : [slash].intercalate p.segments = p.bytes := List.intercalate_splitOn slash
  exact hp ▸ infix_of_mem_intercalate slash h

theorem step?_eq_enter {s n : Bytes} (h : step? s = some (.enter n)) : s = n := by
  rw [step?] at h
  split at h
  · cases h
  · split at h
    · cases h
    · split at h
      · cases h
      · cases h
        rfl

/-- A path says each name that it enters. -/
theorem infix_of_enter {p : Path} {n : Bytes} (h : .enter n ∈ p.steps) : n <:+: p.bytes := by
  have hway : .enter n ∈ p.way := by
    obtain he | he := p.steps_eq
    · exact he ▸ h
    · rw [he, List.mem_append] at h
      exact h.resolve_right (by simp)
  obtain ⟨s, hs, he⟩ := List.mem_filterMap.1 hway
  obtain rfl := step?_eq_enter he
  exact infix_of_mem_segments hs

/-- What is part of two texts with a byte between them that it does not hold is part of one. -/
theorem infix_of_infix_separated {x a b : Bytes} {s : UInt8} (hs : s ∉ x)
    (h : x <:+: a ++ s :: b) : x <:+: a ∨ x <:+: b := by
  obtain ⟨p, q, hpq⟩ := h
  rw [List.append_assoc] at hpq
  obtain ⟨c, rfl, hc⟩ | ⟨c, rfl, hc⟩ := List.append_eq_append_iff.1 hpq
  · obtain ⟨e, rfl, he⟩ | ⟨e, rfl, he⟩ := List.append_eq_append_iff.1 hc
    · exact .inl ⟨p, e, List.append_assoc _ _ _⟩
    · cases e with
      | nil =>
        rw [List.append_nil]
        exact .inl ⟨p, [], by simp⟩
      | cons u e =>
        obtain ⟨rfl, -⟩ := List.cons.inj he
        exact absurd (List.mem_append_right c List.mem_cons_self) hs
  · cases c with
    | nil =>
      cases x with
      | nil => exact .inl (List.nil_infix)
      | cons u x =>
        obtain ⟨rfl, -⟩ := List.cons.inj hc
        exact absurd List.mem_cons_self hs
    | cons u c =>
      obtain ⟨-, rfl⟩ := List.cons.inj hc
      exact .inr ⟨c, q, List.append_assoc _ _ _⟩

/-- Without slashes in it, what a joined path mentions is mentioned by one of its parts. -/
theorem infix_of_infix_join {p q : Path} {x : Bytes} (hx : slash ∉ x)
    (h : x <:+: (p.join q).bytes) : x <:+: p.bytes ∨ x <:+: q.bytes := by
  rw [join] at h
  split at h
  · exact .inr h
  split at h
  next hlast =>
    by_cases hp : p.bytes = []
    · rw [hp] at h
      exact .inr h
    · obtain ⟨p', hp'⟩ : ∃ p', p.bytes = p' ++ [slash] := by
        obtain ⟨p', a, ha⟩ : ∃ p' a, p.bytes = p' ++ [a] :=
          ⟨_, _, (List.dropLast_concat_getLast hp).symm⟩
        obtain rfl : a = slash := by simpa [ha] using hlast
        exact ⟨p', ha⟩
      rw [hp', List.append_assoc, List.singleton_append] at h
      rw [hp']
      exact (infix_of_infix_separated hx h).imp_left fun h =>
        h.trans (List.prefix_append _ _).isInfix
  next => exact infix_of_infix_separated hx h

end Assay.Path
