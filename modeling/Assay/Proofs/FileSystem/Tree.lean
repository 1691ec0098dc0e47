import Assay.FileSystem.Basic
import Mathlib.Data.List.Nodup
import Mathlib.Data.List.Perm.Subperm

/-!
# FileSystem — the shape of the tree

Everything on the way to an entry is a directory with a name (`isDirAt_of_suffix`,
`isName_of_mem`), and a tree has no more levels than entries (`length_le_entries`).
-/

namespace Assay.FileSystem

variable {fs : FileSystem} {n : Bytes} {l d : Loc}

theorem isDirAt_iff : fs.isDirAt l = true ↔ fs.get? l = some .dir := beq_iff_eq

theorem isSome_of_isDirAt (h : fs.isDirAt l = true) : (fs.get? l).isSome :=
  Option.isSome_iff_exists.2 ⟨_, isDirAt_iff.1 h⟩

/-- What stands on the way to an entry is a directory. -/
theorem isDirAt_of_suffix {q : Loc} (hq : q ≠ []) (h : (fs.get? (q ++ d)).isSome) :
    fs.isDirAt d = true := by
  induction q with
  | nil => exact absurd rfl hq
  | cons n q ih =>
    have hdir := fs.get?_dir_of_isSome h
    cases q with
    | nil => exact isDirAt_iff.2 hdir
    | cons m q => exact ih (List.cons_ne_nil m q) (isSome_of_isDirAt (isDirAt_iff.2 hdir))

/-- Where nothing stands there is nothing below. -/
theorem get?_below {k : Loc} (h : fs.get? k = none) (hl : k <:+ l) : fs.get? l = none := by
  obtain ⟨q, rfl⟩ := hl
  cases q with
  | nil => exact h
  | cons x q =>
    by_contra hne
    have hdir := isDirAt_of_suffix (List.cons_ne_nil x q) (Option.isSome_iff_ne_none.2 hne)
    rw [isDirAt_iff, h] at hdir
    cases hdir

/-- What stands above a directory is a directory. -/
theorem isDirAt_of_append {q : Loc} (h : fs.isDirAt (q ++ d) = true) : fs.isDirAt d = true := by
  cases q with
  | nil => exact h
  | cons n q => exact isDirAt_of_suffix (List.cons_ne_nil n q) (isSome_of_isDirAt h)

/-- Everything on the way to an entry has a name. -/
theorem isName_of_mem (h : (fs.get? l).isSome) : ∀ n ∈ l, IsName n := by
  induction l with
  | nil => exact fun n hn => nomatch hn
  | cons m l ih =>
    have hdir := fs.get?_dir_of_isSome h
    exact List.forall_mem_cons.2 ⟨fs.isName_of_isSome h, ih (Option.isSome_of_eq_some hdir)⟩

/-- The name in a directory that a place stands for, if it is there. -/
def nameIn (d l : Loc) : Option Bytes := if l.tail = d then l.head? else none

/-- An entry in a directory has its name there. -/
theorem eq_of_nameIn (h : nameIn d l = some n) : l = n :: d := by
  rw [nameIn] at h
  split at h
  next htail =>
    rw [← htail]
    exact (List.cons_head?_tail h).symm
  next => cases h

/-- The names in a directory are those of the entries one level below it. -/
theorem names_eq (fs : FileSystem) (d : Loc) :
    fs.names d = (fs.entries.map (·.1)).filterMap (nameIn d) := by
  rw [List.filterMap_map]
  refine List.filterMap_congr fun p _ => ?_
  obtain ⟨l, e⟩ := p
  cases l with
  | nil => exact (ite_self none).symm
  | cons n c => rfl

/-- The entries of a directory have different names. -/
theorem nodup_names (fs : FileSystem) (d : Loc) : (fs.names d).Nodup := by
  rw [names_eq]
  refine fs.distinct.filterMap fun a b n ha hb => ?_
  rw [eq_of_nameIn ha, eq_of_nameIn hb]

/-- What stands below the top is in the list of entries. -/
theorem mem_entries (hl : l ≠ []) (h : (fs.get? l).isSome) : l ∈ fs.entries.map (·.1) := by
  rw [get?, find_eq_lookup hl] at h
  obtain ⟨p, hp, he⟩ := List.lookup_isSome_iff.1 h
  exact List.mem_map.2 ⟨p, hp, (eq_of_beq he).symm⟩

/-- A tree has no more levels than entries: all places on the way to one are different. -/
theorem length_le_entries (h : (fs.get? l).isSome) : l.length ≤ fs.entries.length := by
  -- the places on the way have different lengths, and each of them is an entry
  have hnodup : ((List.range l.length).map (l.drop ·)).Nodup := by
    refine (List.nodup_map_iff_inj_on List.nodup_range).2 fun i hi j hj hij => ?_
    have hlen := congrArg List.length hij
    rw [List.length_drop, List.length_drop] at hlen
    have hi := List.mem_range.1 hi
    have hj := List.mem_range.1 hj
    omega
  have hsub : (List.range l.length).map (l.drop ·) ⊆ fs.entries.map (·.1) := fun k hk => by
    obtain ⟨i, hi, rfl⟩ := List.mem_map.1 hk
    have hi := List.mem_range.1 hi
    refine mem_entries (List.ne_nil_of_length_pos (by rw [List.length_drop]; omega)) ?_
    cases i with
    | zero => exact h
    | succ i =>
      refine isSome_of_isDirAt (isDirAt_of_suffix (q := l.take (i + 1)) ?_ ?_)
      · exact List.ne_nil_of_length_pos (by rw [List.length_take]; omega)
      · rwa [List.take_append_drop]
  have hle := (hnodup.subperm hsub).length_le
  rwa [List.length_map, List.length_map, List.length_range] at hle

end Assay.FileSystem
