import Assay.Path

/-!
# FileSystem — a tree of directories, files, devices and symbolic links

The tree is kept as a list of its entries by location. Every entry but the top stands in a
directory, no location stands twice and every name is one that an entry can have; these facts belong
to the type.

* `IsName`: the names that an entry can have.
* `get?`: the view, what stands at a location; two file systems with the same view differ only
  in the order in which directories are listed.
* `insert`, `erase`: the two changes there are, with what each does to the view.

Owners, times and permissions are left out, but for the one to start a file.
-/

namespace Assay

/-- A place in the tree: the entry's name, then the names of its directories, innermost first.
The top is the empty list. -/
abbrev Loc := List Bytes

/-- What a regular file holds and whether it may be started. -/
structure File where
  content : Bytes
  executable : Bool
  deriving DecidableEq, Repr

/-- A file that is none: it keeps nothing of what is written to it. -/
inductive Device where
  /-- Nothing can be read from it. -/
  | null
  /-- Zero bytes can be read from it without end. -/
  | zero
  /-- As `zero`, but there is never room to write. -/
  | full
  deriving DecidableEq, Repr

inductive Entry where
  | dir
  | file (f : File)
  | link (target : Path)
  | device (d : Device)
  deriving DecidableEq, Repr

namespace FileSystem

/-- The longest name of one entry, in bytes. -/
def nameLimit : Nat := 255

/-- Whether an entry can have a name: it is not empty nor too long, holds no slash and no zero byte,
and is none of the two names that every directory has for itself and for the one above it. -/
def IsName (n : Bytes) : Prop :=
  n ≠ [] ∧ n ≠ [Path.dot] ∧ n ≠ [Path.dot, Path.dot] ∧ Path.slash ∉ n ∧ 0 ∉ n ∧
    n.length ≤ nameLimit

instance (n : Bytes) : Decidable (IsName n) := inferInstanceAs (Decidable (_ ∧ _))

/-- What stands at a location of a list of entries; the top is always a directory. -/
def find (es : List (Loc × Entry)) : Loc → Option Entry
  | []     => some .dir
  | n :: d => es.lookup (n :: d)

theorem lookup_filter (keep : Loc → Bool) (es : List (Loc × Entry)) (l : Loc) :
    (es.filter fun p => keep p.1).lookup l = if keep l then es.lookup l else none := by
  induction es with
  | nil => simp
  | cons p es ih =>
    obtain ⟨k, e⟩ := p
    by_cases hk : keep k <;> by_cases hl : l = k
    · subst hl; simp [hk]
    · simp [hk, List.lookup_cons, ih, beq_eq_false_iff_ne.2 hl]
    · subst hl; simp [hk, ih]
    · simp [hk, List.lookup_cons, ih, beq_eq_false_iff_ne.2 hl]

theorem find_eq_lookup {l : Loc} (h : l ≠ []) (es : List (Loc × Entry)) :
    find es l = es.lookup l := by
  cases l with
  | nil => exact absurd rfl h
  | cons n d => rfl

/-- An entry put in front of the others. -/
theorem find_cons (es : List (Loc × Entry)) (n : Bytes) (d : Loc) (e : Entry) (l : Loc) :
    find ((n :: d, e) :: es.filter fun p => p.1 != n :: d) l =
      if l = n :: d then some e else find es l := by
  cases l with
  | nil => simp [find]
  | cons m c =>
    rw [find, find, List.lookup_cons, lookup_filter (fun k => k != n :: d)]
    by_cases h : m :: c = n :: d
    · simp [h]
    · simp [h, beq_eq_false_iff_ne.2 h]

/-- What is taken away is not found, nor is anything below it; all else is. -/
theorem find_filter (es : List (Loc × Entry)) (k : Loc) (hk : k ≠ []) (l : Loc) :
    find (es.filter fun p => !k.isSuffixOf p.1) l =
      if k.isSuffixOf l then none else find es l := by
  cases l with
  | nil =>
    have : k.isSuffixOf [] = false := by
      rw [Bool.eq_false_iff]
      intro h
      exact hk (List.suffix_nil.1 (List.isSuffixOf_iff_suffix.1 h))
    simp [find, this]
  | cons m c =>
    rw [find, find, lookup_filter (fun l => !k.isSuffixOf l)]
    by_cases h : k.isSuffixOf (m :: c) <;> simp [h]

end FileSystem

structure FileSystem where
  entries : List (Loc × Entry)
  /-- Where relative paths start. -/
  cwd : Loc
  distinct : (entries.map (·.1)).Nodup
  closed : ∀ n d, (FileSystem.find entries (n :: d)).isSome →
    FileSystem.find entries d = some .dir
  named : ∀ n d, (FileSystem.find entries (n :: d)).isSome → FileSystem.IsName n

namespace FileSystem

/-- The tree that holds nothing but its top. -/
def empty : FileSystem where
  entries := []
  cwd := []
  distinct := .nil
  closed := by simp [find]
  named := by simp [find]

instance : Inhabited FileSystem := ⟨empty⟩

/-- What stands at a location. -/
def get? (fs : FileSystem) (l : Loc) : Option Entry := find fs.entries l

def isDirAt (fs : FileSystem) (l : Loc) : Bool := fs.get? l == some .dir

/-- The names in a directory, in no particular order. -/
def names (fs : FileSystem) (d : Loc) : List Bytes :=
  fs.entries.filterMap fun p =>
    match p.1 with
    | []     => none
    | n :: c => if c = d then some n else none

/-- Puts an entry into a directory, in place of any other that is no directory itself. -/
def insert (fs : FileSystem) (n : Bytes) (d : Loc) (e : Entry) (name : IsName n)
    (hd : fs.get? d = some .dir) (hn : fs.get? (n :: d) ≠ some .dir) : FileSystem where
  entries := (n :: d, e) :: fs.entries.filter fun p => p.1 != n :: d
  cwd := fs.cwd
  distinct := by
    rw [List.map_cons, List.nodup_cons]
    refine ⟨?_, (fs.distinct.sublist (List.filter_sublist.map _))⟩
    simp
  closed := by
    intro m c h
    rw [find_cons] at h ⊢
    have hc : find fs.entries c = some .dir := by
      by_cases hmc : m :: c = n :: d
      · obtain ⟨rfl, rfl⟩ := List.cons.inj hmc
        exact hd
      · rw [if_neg hmc] at h
        exact fs.closed m c h
    have hne : c ≠ n :: d := by
      rintro rfl
      exact hn hc
    rw [if_neg hne, hc]
  named := by
    intro m c h
    rw [find_cons] at h
    by_cases hmc : m :: c = n :: d
    · obtain ⟨rfl, -⟩ := List.cons.inj hmc
      exact name
    · rw [if_neg hmc] at h
      exact fs.named m c h

/-- Takes away an entry and all below it. -/
def erase (fs : FileSystem) (n : Bytes) (d : Loc) : FileSystem where
  entries := fs.entries.filter fun p => !(n :: d).isSuffixOf p.1
  cwd := fs.cwd
  distinct := fs.distinct.sublist (List.filter_sublist.map _)
  closed := by
    intro m c h
    rw [find_filter _ _ (List.cons_ne_nil _ _)] at h ⊢
    have hmc : (n :: d).isSuffixOf (m :: c) = false := by
      rw [Bool.eq_false_iff]
      intro hs
      simp [hs] at h
    have hc : (n :: d).isSuffixOf c = false := by
      rw [Bool.eq_false_iff] at hmc ⊢
      intro hs
      exact hmc (List.isSuffixOf_iff_suffix.2
        ((List.isSuffixOf_iff_suffix.1 hs).trans (List.suffix_cons m c)))
    rw [hmc] at h
    rw [hc]
    exact fs.closed m c h
  named := by
    intro m c h
    rw [find_filter _ _ (List.cons_ne_nil _ _)] at h
    by_cases hmc : (n :: d).isSuffixOf (m :: c)
    · simp [hmc] at h
    · rw [if_neg hmc] at h
      exact fs.named m c h

@[simp] theorem cwd_insert (fs : FileSystem) (n : Bytes) (d : Loc) (e : Entry) (name hd hn) :
    (fs.insert n d e name hd hn).cwd = fs.cwd := rfl

@[simp] theorem cwd_erase (fs : FileSystem) (n : Bytes) (d : Loc) :
    (fs.erase n d).cwd = fs.cwd := rfl

/-- What is inserted stands at its location, and all else where it stood. -/
theorem get?_insert (fs : FileSystem) (n : Bytes) (d : Loc) (e : Entry) (name hd hn) (l : Loc) :
    (fs.insert n d e name hd hn).get? l = if l = n :: d then some e else fs.get? l :=
  find_cons fs.entries n d e l

/-- What is erased is gone with all below it, and all else stands where it stood. -/
theorem get?_erase (fs : FileSystem) (n : Bytes) (d l : Loc) :
    (fs.erase n d).get? l = if (n :: d).isSuffixOf l then none else fs.get? l :=
  find_filter fs.entries (n :: d) (List.cons_ne_nil _ _) l

@[simp] theorem get?_top (fs : FileSystem) : fs.get? [] = some .dir := rfl

/-- The names in a directory are those at which something stands, each once. -/
theorem mem_names {fs : FileSystem} {n : Bytes} {d : Loc} :
    n ∈ fs.names d ↔ (fs.get? (n :: d)).isSome := by
  simp only [names, List.mem_filterMap, get?, find]
  constructor
  · rintro ⟨⟨l, e⟩, hp, h⟩
    cases l with
    | nil => simp at h
    | cons m c =>
      by_cases hc : c = d
      · simp only [hc, if_true, Option.some.injEq] at h
        subst h hc
        exact List.lookup_isSome_iff.2 ⟨(m :: c, e), hp, beq_self_eq_true _⟩
      · simp [hc] at h
  · intro h
    obtain ⟨⟨l, e⟩, hp, hl⟩ := List.lookup_isSome_iff.1 h
    refine ⟨(l, e), hp, ?_⟩
    rw [← eq_of_beq hl]
    simp

/-- Whatever stands somewhere stands in a directory. -/
theorem get?_dir_of_isSome (fs : FileSystem) {n : Bytes} {d : Loc}
    (h : (fs.get? (n :: d)).isSome) : fs.get? d = some .dir :=
  fs.closed n d h

/-- Whatever stands somewhere has a name. -/
theorem isName_of_isSome (fs : FileSystem) {n : Bytes} {d : Loc}
    (h : (fs.get? (n :: d)).isSome) : IsName n :=
  fs.named n d h

end FileSystem

end Assay
