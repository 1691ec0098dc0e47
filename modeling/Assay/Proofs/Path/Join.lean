import Assay.FileSystem.Resolve
import Mathlib.Data.List.Basic

/-!
# Path — entries of directories

To join a relative path adds its components but for a dot in front (`components_join_relative`). For
the name of an entry this is one component (`components_join`), so the name can be read off again
(`fileName?_join`) and the components of the directory come first (`behind?_below`). `below p l` is
the path of a place below the directory at `p`, and the same as `p` joined with the names on the way
to it (`below_eq_join`).
-/

namespace Assay.Path

open FileSystem (IsName)

/-! ### One name -/

/-- Whether some bytes stand for an entry where they stand between slashes. -/
def IsSegment (n : Bytes) : Prop := n ≠ [] ∧ n ≠ [dot] ∧ n ≠ [dot, dot] ∧ slash ∉ n

instance (n : Bytes) : Decidable (IsSegment n) := inferInstanceAs (Decidable (_ ∧ _))

/-- A name is a segment of its own. -/
theorem isSegment_of_isName {n : Bytes} (h : IsName n) : IsSegment n :=
  ⟨h.1, h.2.1, h.2.2.1, h.2.2.2.1⟩

theorem segments_name {n : Bytes} (h : IsSegment n) : (⟨n⟩ : Path).segments = [n] :=
  List.splitOn_eq_singleton h.2.2.2

theorem isAbsolute_name {n : Bytes} (h : IsSegment n) : (⟨n⟩ : Path).isAbsolute = false := by
  obtain ⟨hne, -, -, hslash⟩ := h
  cases n with
  | nil => exact absurd rfl hne
  | cons a n =>
    refine beq_eq_false_iff_ne.2 fun e => hslash ?_
    rw [← Option.some.inj e]
    exact List.mem_cons_self

theorem component?_name {n : Bytes} (h : IsSegment n) : component? n = some (.name n) := by
  rw [component?, if_neg fun e => e.elim h.1 h.2.1, if_neg h.2.2.1]

/-- What joining does to the bytes of a path. -/
theorem bytes_join {p q : Path} (h : q.isAbsolute = false) :
    (p.join q).bytes =
      if p.bytes.getLast?.all (· == slash) then p.bytes ++ q.bytes
      else p.bytes ++ slash :: q.bytes := by
  rw [join, h, if_neg Bool.false_ne_true]
  split <;> rfl

/-- To join stands for putting the same bytes in front, whatever is joined. -/
theorem exists_bytes_join (p : Path) :
    ∃ front, (front = p.bytes ∨ front = p.bytes ++ [slash]) ∧
      ∀ q : Path, q.isAbsolute = false → (p.join q).bytes = front ++ q.bytes := by
  by_cases h : p.bytes.getLast?.all (· == slash) = true
  · exact ⟨p.bytes, .inl rfl, fun q hq => by rw [bytes_join hq, if_pos h]⟩
  · refine ⟨p.bytes ++ [slash], .inr rfl, fun q hq => ?_⟩
    rw [bytes_join hq, if_neg h, List.append_assoc, List.singleton_append]

/-- A path that ends in a name is at least as long as the name. -/
theorem length_le_join (p : Path) {n : Bytes} (h : IsSegment n) :
    n.length ≤ (p.join ⟨n⟩).bytes.length := by
  rw [bytes_join (isAbsolute_name h)]
  split
  · simp
  · simp only [List.length_append, List.length_cons]
    omega

/-- A relative path joined comes behind the segments of a path, an empty one at its end apart. -/
theorem segments_join_relative {p q : Path} (hp : p.bytes ≠ []) (hq : q.isAbsolute = false) :
    ∃ ss ts, ss ≠ [] ∧ (∀ t ∈ ts, t = []) ∧ p.segments = ss ++ ts ∧
      (p.join q).segments = ss ++ q.segments := by
  rw [segments, segments, segments, bytes_join hq]
  split
  next hlast =>
    -- the path ends in a slash, so its last segment is empty and what is joined takes its place
    obtain ⟨r, b, hr⟩ : ∃ r b, p.bytes = r ++ [b] :=
      ⟨_, _, (List.dropLast_concat_getLast hp).symm⟩
    have hb : b = slash := by simpa [hr] using hlast
    subst hb
    refine ⟨r.splitOn slash, [[]], List.splitOn_ne_nil _ _, by simp, ?_, ?_⟩
    · rw [hr, List.splitOn_append_cons_self, List.splitOn_nil]
    · rw [hr, List.append_assoc, List.singleton_append, List.splitOn_append_cons_self]
  next =>
    refine ⟨p.bytes.splitOn slash, [], List.splitOn_ne_nil _ _, by simp, by simp, ?_⟩
    rw [List.splitOn_append_cons_self]

/-- A name joined is one more segment. -/
theorem segments_join {p : Path} (hp : p.bytes ≠ []) {n : Bytes} (h : IsSegment n) :
    ∃ ss ts, ss ≠ [] ∧ (∀ t ∈ ts, t = []) ∧ p.segments = ss ++ ts ∧
      (p.join ⟨n⟩).segments = ss ++ [n] := by
  rw [← segments_name h]
  exact segments_join_relative hp (isAbsolute_name h)

/-- A path with a relative one behind it starts where the path alone does. -/
theorem isAbsolute_join_relative (p : Path) {q : Path} (hq : q.isAbsolute = false) :
    (p.join q).isAbsolute = p.isAbsolute := by
  by_cases hp : p.bytes = []
  · obtain ⟨bytes⟩ := p
    obtain rfl : bytes = [] := hp
    rw [join, hq]
    exact hq
  · rw [isAbsolute, isAbsolute, bytes_join hq]
    split <;> rw [List.head?_append_of_ne_nil _ hp]

/-- A name behind a path does not decide whether it is absolute. -/
theorem isAbsolute_join (p : Path) {n : Bytes} (h : IsSegment n) :
    (p.join ⟨n⟩).isAbsolute = p.isAbsolute :=
  isAbsolute_join_relative p (isAbsolute_name h)

/-- A path that is not empty keeps what it begins with. -/
theorem lead_join {p q : Path} (hp : p.bytes ≠ []) (hq : q.isAbsolute = false) :
    (p.join q).lead = p.lead := by
  obtain ⟨ss, ts, hss, -, hseg, hjoin⟩ := segments_join_relative hp hq
  rw [lead, lead, isAbsolute_join_relative p hq, hseg, hjoin, List.head?_append_of_ne_nil _ hss,
    List.head?_append_of_ne_nil _ hss]

/-- The components behind what a path begins with. -/
theorem filterMap_join {p q : Path} (hp : p.bytes ≠ []) (hq : q.isAbsolute = false) :
    (p.join q).segments.filterMap component? =
      p.segments.filterMap component? ++ q.segments.filterMap component? := by
  obtain ⟨ss, ts, -, hts, hseg, hjoin⟩ := segments_join_relative hp hq
  have hnone : ts.filterMap component? = [] :=
    List.filterMap_eq_nil_iff.2 fun t ht => by rw [hts t ht]; rfl
  rw [hseg, hjoin, List.filterMap_append, List.filterMap_append, hnone, List.append_nil]

theorem component?_ne_here (s : Bytes) : component? s ≠ some .here := by
  unfold component?
  split_ifs <;> nofun

/-- The dot in front is the only one that counts. -/
theorem filter_components {q : Path} (hq : q.isAbsolute = false) :
    q.components.filter (· ≠ .here) = q.segments.filterMap component? := by
  have hlead : q.lead.filter (· ≠ .here) = [] := by
    rw [lead, hq, if_neg Bool.false_ne_true]
    split <;> rfl
  rw [components, List.filter_append, hlead, List.nil_append, List.filter_eq_self]
  intro c hc
  obtain ⟨s, -, hs⟩ := List.mem_filterMap.1 hc
  refine decide_eq_true fun h => component?_ne_here s ?_
  rw [hs, h]

/-- The components of a path come first, then those of what is joined but for a dot in front. -/
theorem components_join_relative {p q : Path} (hp : p.bytes ≠ []) (hq : q.isAbsolute = false) :
    (p.join q).components = p.components ++ q.components.filter (· ≠ .here) := by
  rw [filter_components hq, components, components, lead_join hp hq, filterMap_join hp hq,
    List.append_assoc]

/-- The name of an entry is one more component. -/
theorem components_join (p : Path) {n : Bytes} (h : IsSegment n) :
    (p.join ⟨n⟩).components = p.components ++ [.name n] := by
  have hlead : (⟨n⟩ : Path).lead = [] := by
    rw [lead, isAbsolute_name h, segments_name h]
    simp [h.2.1]
  have hname : (⟨n⟩ : Path).components = [.name n] := by
    rw [components, hlead, segments_name h]
    simp [component?_name h]
  by_cases hp : p.bytes = []
  · obtain ⟨bytes⟩ := p
    obtain rfl : bytes = [] := hp
    have hjoin : (⟨[]⟩ : Path).join ⟨n⟩ = ⟨n⟩ := by
      rw [join, isAbsolute_name h]
      rfl
    have hempty : (⟨[]⟩ : Path).components = [] := by decide
    rw [hjoin, hname, hempty, List.nil_append]
  · rw [components_join_relative hp (isAbsolute_name h), hname]
    rfl

/-- A child has one component more. -/
theorem components_child (p : Path) {n : String} (h : IsSegment (Text.Utf8.encode n)) :
    (p.child n).components = p.components ++ [.name (Text.Utf8.encode n)] :=
  components_join p h

/-- The last name of a path that was joined is the name that came last. -/
theorem fileName?_join (p : Path) {n : Bytes} (h : IsName n) :
    (p.join ⟨n⟩).fileName? = some n := by
  rw [fileName?, components_join p (isSegment_of_isName h), List.getLast?_append]
  rfl

/-! ### The names on a way -/

/-- The path of a place below the directory at a path. -/
def below (p : Path) : Loc → Path
  | []     => p
  | n :: l => (below p l).join ⟨n⟩

/-- The names on the way to a place, with slashes between them. -/
def relative (l : Loc) : Path := ⟨[slash].intercalate l.reverse⟩

/-- The components of a path below are those above it and the names on the way. -/
theorem components_below (p : Path) {l : Loc} (h : ∀ n ∈ l, IsName n) :
    (below p l).components = p.components ++ l.reverse.map .name := by
  induction l with
  | nil => exact (List.append_nil _).symm
  | cons n l ih =>
    obtain ⟨hn, hl⟩ := List.forall_mem_cons.1 h
    rw [below, components_join _ (isSegment_of_isName hn), ih hl, List.reverse_cons,
      List.map_append, List.append_assoc]
    rfl

/-- What lies below a directory lies behind its path. -/
theorem behind?_below (p : Path) {l : Loc} (h : ∀ n ∈ l, IsName n) :
    p.behind? (below p l) = some (l.reverse.map .name) := by
  rw [behind?, components_below p h, if_pos, List.drop_left]
  exact List.isPrefixOf_iff_prefix.2 (List.prefix_append _ _)

/-- With one part more at the end there is one separator more. -/
theorem intercalate_concat {α : Type} (x : α) {ls : List (List α)} (h : ls ≠ []) (n : List α) :
    [x].intercalate (ls ++ [n]) = [x].intercalate ls ++ x :: n := by
  induction ls with
  | nil => exact absurd rfl h
  | cons a ls ih =>
    by_cases hls : ls = []
    · subst hls
      exact List.intercalate_cons_cons.trans (by simp)
    · have hcons := List.append_ne_nil_of_left_ne_nil hls [n]
      rw [List.cons_append, List.intercalate_cons_of_ne_nil hcons, ih hls,
        List.intercalate_cons_of_ne_nil hls]
      simp only [List.append_assoc]

@[simp] theorem relative_singleton (n : Bytes) : relative [n] = ⟨n⟩ :=
  congrArg Path.mk List.intercalate_singleton

/-- A way ends with its last name. -/
theorem relative_cons {n : Bytes} {l : Loc} (h : l ≠ []) :
    (relative (n :: l)).bytes = (relative l).bytes ++ slash :: n := by
  rw [relative, List.reverse_cons]
  exact intercalate_concat slash (mt List.reverse_eq_nil_iff.1 h) n

/-- Whether more names can follow a path behind a slash: it names something, not from the top, and
does not end in a slash. -/
structure IsWay (q : Path) : Prop where
  relative : q.isAbsolute = false
  open_ : q.bytes.getLast?.all (· == slash) = false

/-- A way is not empty. -/
theorem IsWay.ne_nil {q : Path} (h : q.IsWay) : q.bytes ≠ [] := fun hq => by
  have := h.open_
  rw [hq] at this
  cases this

/-- A name is a way of one step. -/
theorem isWay_name {n : Bytes} (h : IsName n) : (⟨n⟩ : Path).IsWay where
  relative := isAbsolute_name (isSegment_of_isName h)
  open_ := by
    obtain ⟨b, hb⟩ : ∃ b, n.getLast? = some b :=
      Option.isSome_iff_exists.1 (List.getLast?_isSome.2 h.1)
    have hmem : b ∈ n := List.mem_of_getLast? hb
    rw [hb]
    exact beq_eq_false_iff_ne.2 fun e => h.2.2.2.1 (e ▸ hmem)

/-- One name more on a way. -/
theorem IsWay.cons {q : Path} (h : q.IsWay) {n : Bytes} (hn : IsName n) :
    (⟨q.bytes ++ slash :: n⟩ : Path).IsWay where
  relative := by
    rw [← h.relative, isAbsolute, isAbsolute, List.head?_append_of_ne_nil _ h.ne_nil]
  open_ := by
    have hlast := (isWay_name hn).open_
    rwa [List.getLast?_append_of_ne_nil _ (List.cons_ne_nil slash n),
      List.getLast?_cons_of_ne_nil hn.1]

/-- To join a way and then a name is to join the longer way. -/
theorem join_join (p : Path) {q : Path} (h : q.IsWay) {n : Bytes} (hn : IsName n) :
    (p.join q).join ⟨n⟩ = p.join ⟨q.bytes ++ slash :: n⟩ := by
  have hlast : (p.join q).bytes.getLast?.all (· == slash) = false := by
    rw [← h.open_, bytes_join h.relative]
    split
    · rw [List.getLast?_append_of_ne_nil _ h.ne_nil]
    · rw [List.getLast?_append_of_ne_nil _ (List.cons_ne_nil slash _),
        List.getLast?_cons_of_ne_nil h.ne_nil]
  have hbytes : ((p.join q).join ⟨n⟩).bytes = (p.join ⟨q.bytes ++ slash :: n⟩).bytes := by
    rw [bytes_join (isAbsolute_name (isSegment_of_isName hn)), hlast, if_neg Bool.false_ne_true,
      bytes_join h.relative, bytes_join (h.cons hn).relative]
    split <;> simp
  exact congrArg Path.mk hbytes

/-- Names on a way are a way. -/
theorem isWay_relative {n : Bytes} {l : Loc} (h : ∀ m ∈ n :: l, IsName m) :
    (relative (n :: l)).IsWay := by
  induction l generalizing n with
  | nil =>
    rw [relative_singleton]
    exact isWay_name (h n List.mem_cons_self)
  | cons m l ih =>
    obtain ⟨hn, hl⟩ := List.forall_mem_cons.1 h
    have hway := (ih hl).cons hn
    rwa [← relative_cons (List.cons_ne_nil m l)] at hway

/-- The path of a place is that of the directory, joined with the names on the way. -/
theorem below_eq_join (p : Path) {n : Bytes} {l : Loc} (h : ∀ m ∈ n :: l, IsName m) :
    below p (n :: l) = p.join (relative (n :: l)) := by
  induction l generalizing n with
  | nil => rw [relative_singleton]; rfl
  | cons m l ih =>
    obtain ⟨hn, hl⟩ := List.forall_mem_cons.1 h
    have hrel : relative (n :: m :: l) = ⟨(relative (m :: l)).bytes ++ slash :: n⟩ :=
      congrArg Path.mk (relative_cons (List.cons_ne_nil m l))
    rw [below, ih hl, join_join p (isWay_relative hl) hn, hrel]

end Assay.Path
