import Assay.Proofs.Discovery.Exact

/-!
# Discovery — directories that are overlooked

A directory that is added to a tree is overlooked by discovery unless its name is that of a fixture
or its path is too long to be listed. The suites are the same as before exactly if all that was
added is overlooked (`discover_iff_overlooks`).
-/

namespace Assay.Discovery

open FileSystem (pathLimit)
open Assay.Path (below)

variable {fs fs' : FileSystem} {root : Path} {d : Loc}

/-! ### The same folders -/

theorem pairwise_folders (fs : FileSystem) (d : Loc) : (folders fs d).Pairwise (· ≤ ·) := by
  have htrans : ∀ a b c : Bytes, decide (a ≤ b) = true → decide (b ≤ c) = true →
      decide (a ≤ c) = true := fun a b c hab hbc =>
    decide_eq_true (List.le_trans (of_decide_eq_true hab) (of_decide_eq_true hbc))
  have htotal : ∀ a b : Bytes, (decide (a ≤ b) || decide (b ≤ a)) = true := fun a b => by
    rw [← Bool.decide_or]
    exact decide_eq_true (List.le_total a b)
  have hsorted := List.pairwise_mergeSort htrans htotal (fs.names d)
  exact (hsorted.imp of_decide_eq_true).filter _

/-- Folders of one tree among those of another with more directories. -/
theorem folders_eq_filter (h : ∀ n, fs.isDirAt (n :: d) = true → fs'.isDirAt (n :: d) = true) :
    folders fs d = (folders fs' d).filter fun n => fs.isDirAt (n :: d) := by
  refine List.Perm.eq_of_pairwise (fun a b _ _ => List.le_antisymm) (pairwise_folders fs d)
    ((pairwise_folders fs' d).filter _) ?_
  refine (List.perm_ext_iff_of_nodup (nodup_folders fs d) ((nodup_folders fs' d).filter _)).2
    fun n => ?_
  rw [List.mem_filter, mem_folders, mem_folders]
  exact ⟨fun hn => ⟨h n hn, hn⟩, And.right⟩

/-- Where some items of a list come to nothing the others come to all. -/
theorem flatMap_filter_eq {α β : Type} {p : α → Bool} {f g : α → List β} {l : List α}
    (hin : ∀ a ∈ l, p a = true → f a = g a) (hout : ∀ a ∈ l, p a = false → f a = []) :
    l.flatMap f = (l.filter p).flatMap g := by
  induction l with
  | nil => rfl
  | cons a l ih =>
    obtain ⟨hina, hinl⟩ := List.forall_mem_cons.1 hin
    obtain ⟨houta, houtl⟩ := List.forall_mem_cons.1 hout
    rw [List.flatMap_cons, ih hinl houtl]
    cases hp : p a with
    | true => rw [List.filter_cons_of_pos hp, List.flatMap_cons, hina hp]
    | false => rw [List.filter_cons_of_neg (by simp [hp]), houta hp, List.nil_append]

/-! ### The same places -/

/-- Whether no directory that is in the second of two trees and not in the first is a fixture below
a directory. -/
def NoFixtureAdded (d : Loc) (fs fs' : FileSystem) : Prop :=
  ∀ l, IsFixtureAt fs' d l → fs.isDirAt (l ++ d) = true

/-- Whether a number of levels is enough for all directories at or below a place. -/
def Enough (fs : FileSystem) (d : Loc) (k : Nat) (r : Loc) : Prop :=
  ∀ q, fs.isDirAt (q ++ r ++ d) = true → q.length ≤ k

theorem Enough.down {k : Nat} {r : Loc} (h : Enough fs d (k + 1) r) (n : Bytes) :
    Enough fs d k (n :: r) := fun q hq => by
  have hlen := h (q ++ [n]) (by simpa using hq)
  rw [List.length_append, List.length_singleton] at hlen
  omega

/-- A place has no folders if no level is left. -/
theorem folders_of_enough {r : Loc} (h : Enough fs d 0 r) : folders fs (r ++ d) = [] := by
  refine List.eq_nil_iff_forall_not_mem.2 fun n hn => ?_
  exact absurd (h [n] (mem_folders.1 hn)) (by simp)

/-- With enough levels a place has the fixtures that it had, if none is added. -/
theorem places_of_added (hw : ∀ l, fs.isDirAt l = true → fs'.isDirAt l = true)
    (hno : NoFixtureAdded d fs fs') {k k' : Nat} {r : Loc} (hk : Enough fs d k r)
    (hk' : Enough fs' d k' r) : places fs' d k' r = places fs d k r := by
  induction k' generalizing k r with
  | zero =>
    cases k with
    | zero => rfl
    | succ k =>
      have hnone : folders fs (r ++ d) = [] := by
        rw [folders_eq_filter fun n => hw (n :: (r ++ d)), folders_of_enough hk', List.filter_nil]
      rw [places, places, hnone]
      rfl
  | succ k' ih =>
    -- what is below a new directory is new too, and so is no fixture
    have hnew : ∀ n ∈ folders fs' (r ++ d), fs.isDirAt (n :: (r ++ d)) = false →
        (if isFixtureName (Text.Utf8.decodeLossy n) then [n :: r] else []) ++
          places fs' d k' (n :: r) = [] := by
      intro n hn hold
      refine List.eq_nil_iff_forall_not_mem.2 fun l hl => ?_
      have hmem : l ∈ places fs' d (k' + 1) r := by
        rw [places]
        exact List.mem_flatMap.2 ⟨n, hn, hl⟩
      obtain ⟨-, -, -, -, hfixture⟩ := mem_places.1 hmem
      have hdir := hno l hfixture
      obtain ⟨q, rfl⟩ := ends_of_mem hl
      rw [List.append_assoc] at hdir
      have hup : fs.isDirAt (n :: (r ++ d)) = true := FileSystem.isDirAt_of_append hdir
      cases hold.symm.trans hup
    cases k with
    | zero =>
      rw [places, places, List.flatMap_eq_nil_iff]
      refine fun n hn => hnew n hn (Bool.eq_false_iff.2 fun hold => ?_)
      exact absurd (hk [n] hold) (by simp)
    | succ k =>
      rw [places, places, folders_eq_filter fun n => hw (n :: (r ++ d))]
      refine flatMap_filter_eq (fun n _ _ => ?_) hnew
      rw [ih (hk.down n) (hk'.down n)]

/-! ### The same suites -/

/-- Whether every directory that is in the second of two trees and not in the first is overlooked
below a root. -/
def Overlooks (root : Path) (fs fs' : FileSystem) : Prop :=
  ∀ d, fs.openDir root = .ok d → ∀ l, fs'.isDirAt (l ++ d) = true → fs.isDirAt (l ++ d) = false →
    ¬ IsFixtureAt fs' d l ∧ ¬ IsTooLong root l

/-- Whether directories are overlooked depends on what is a directory alone. -/
theorem overlooks_congr {fs'' : FileSystem} (h : ∀ l, fs''.isDirAt l = fs'.isDirAt l) :
    Overlooks root fs fs'' ↔ Overlooks root fs fs' := by
  simp only [Overlooks, IsFixtureAt, h]

/-- It is enough to look at the entries of the second tree. -/
theorem overlooks_of_entries (hd : fs.openDir root = .ok d)
    (h : ∀ e ∈ fs'.entries, fs.isDirAt e.1 = false →
      (∀ n ∈ e.1.head?, isFixtureName (Text.Utf8.decodeLossy n) = false) ∧
        (below root (e.1.take (e.1.length - d.length))).bytes.length ≤ pathLimit) :
    Overlooks root fs fs' := by
  intro d' hd' l hdir hnew
  obtain rfl := Except.ok.inj (hd.symm.trans hd')
  have hroot : fs.isDirAt d = true :=
    FileSystem.isDirAt_iff.2 (FileSystem.get?_of_lookup (FileSystem.openDir_eq_ok.1 hd))
  cases l with
  | nil => cases hnew.symm.trans hroot
  | cons n r =>
    obtain ⟨e, he, heq⟩ := List.mem_map.1 (FileSystem.mem_entries (List.cons_ne_nil n (r ++ d))
      (FileSystem.isSome_of_isDirAt hdir))
    have hhead : e.1.head? = some n := by rw [heq]; rfl
    have htake : e.1.take (e.1.length - d.length) = n :: r := by
      rw [heq, ← List.cons_append, List.length_append, Nat.add_sub_cancel, List.take_left]
    obtain ⟨hname, hlen⟩ := h e he (heq ▸ hnew)
    refine ⟨fun ⟨_, m, r', hm, hdigits⟩ => ?_, ?_⟩
    · obtain ⟨rfl, -⟩ := List.cons.inj hm
      have hfixture := (isFixtureName_iff n).2 hdigits
      rw [hname n hhead] at hfixture
      cases hfixture
    · rw [htake] at hlen
      exact Nat.not_lt.2 hlen

theorem length_le_of_isDirAt {l : Loc} (h : fs.isDirAt (l ++ d) = true) :
    l.length ≤ fs.entries.length := by
  have hlen := FileSystem.length_le_entries (FileSystem.isSome_of_isDirAt h)
  rw [List.length_append] at hlen
  omega

theorem enough_entries (fs : FileSystem) (d : Loc) : Enough fs d (fs.entries.length + 1) [] :=
  fun q hq => Nat.le_succ_of_le (length_le_of_isDirAt (List.append_nil q ▸ hq))

/-- With enough levels a walk comes to every fixture. -/
theorem mem_places_of_enough {k : Nat} (h : Enough fs d k []) {l : Loc} :
    l ∈ places fs d k [] ↔ IsFixtureAt fs d l := by
  rw [mem_places]
  constructor
  · rintro ⟨q, -, -, -, hl⟩
    exact hl
  · intro hl
    obtain ⟨hdir, n, r, rfl, -⟩ := id hl
    have hlen := h (n :: r) (by rw [List.append_nil]; exact hdir)
    exact ⟨n :: r, List.cons_ne_nil n r, hlen, (List.append_nil _).symm, hl⟩

/-- Suites are discovered exactly if no path is too long, and then they are those of the places. -/
theorem discover_eq_ok {suites : List Suite} (hd : fs.openDir root = .ok d) :
    discover fs root = .ok suites ↔
      (∀ l, fs.isDirAt (l ++ d) = true → ¬ IsTooLong root l) ∧
        suites = group ((places fs d (fs.entries.length + 1) []).map (foundAt root)) := by
  have hroot : fs.isDirAt d = true :=
    FileSystem.isDirAt_iff.2 (FileSystem.get?_of_lookup (FileSystem.openDir_eq_ok.1 hd))
  have hwalk := walk_cases (k := fs.entries.length + 1) (r := []) root hroot
  rw [List.nil_append, below] at hwalk
  rw [discover, hd]
  obtain ⟨hok, hshort⟩ | ⟨e, he, l, hdir, hlong, -⟩ := hwalk
  · have hall : ∀ l, fs.isDirAt (l ++ d) = true → ¬ IsTooLong root l := fun l hl => by
      have hl' := hshort l (Nat.lt_succ_of_le (length_le_of_isDirAt hl))
      rw [List.append_nil] at hl'
      exact hl' hl
    rw [and_iff_right hall]
    simp only [hok]
    exact ⟨fun h => (Except.ok.inj h).symm, congrArg Except.ok ∘ Eq.symm⟩
  · simp only [he]
    refine iff_of_false (fun h => ?_) fun h => h.1 l hdir hlong
    cases h

/-- The suites that were discovered are exact. -/
theorem exact_of_discover {suites : List Suite} (hd : fs.openDir root = .ok d)
    (h : discover fs root = .ok suites) : IsExact fs root d suites := by
  obtain ⟨-, rfl⟩ := (discover_eq_ok hd).1 h
  exact exact_group (fun l => mem_places_of_enough (enough_entries fs d)) (nodup_places fs d _ [])

theorem exists_openDir {suites : List Suite} (h : discover fs root = .ok suites) :
    ∃ d, fs.openDir root = .ok d := by
  cases hd : fs.openDir root with
  | error why => rw [discover, hd] at h; cases h
  | ok d => exact ⟨d, rfl⟩

theorem inhabited_of_discover {suites : List Suite} (h : discover fs root = .ok suites) :
    ∀ s ∈ suites, s.fixtures ≠ [] := by
  obtain ⟨d, hd⟩ := exists_openDir h
  exact (exact_of_discover hd h).inhabited

/-- What was found in a tree is found in one with more directories exactly if discovery overlooks
these. -/
theorem discover_iff_overlooks {suites : List Suite} (hw : fs.Within fs')
    (h : discover fs root = .ok suites) :
    discover fs' root = .ok suites ↔ Overlooks root fs fs' := by
  obtain ⟨d, hd⟩ := exists_openDir h
  have hd' : fs'.openDir root = .ok d :=
    FileSystem.openDir_eq_ok.2 (FileSystem.lookup_mono hw (FileSystem.openDir_eq_ok.1 hd))
  constructor
  · intro h' d₁ hd₁ l hdir hnew
    obtain rfl := Except.ok.inj (hd.symm.trans hd₁)
    refine ⟨fun hfixture => ?_, ((discover_eq_ok hd').1 h').1 l hdir⟩
    -- a new fixture would be one of the old
    have hmem := (exact_of_discover hd' h').complete l hfixture
    obtain ⟨m, ⟨hm, heq⟩, -⟩ := (exact_of_discover hd h).sound _ hmem
    obtain rfl := hfixture.inj ⟨hw.isDirAt hm.1, hm.2⟩ heq
    cases hnew.symm.trans hm.1
  · intro ho
    obtain ⟨hshort, hsuites⟩ := (discover_eq_ok hd).1 h
    have hplaces : places fs' d (fs'.entries.length + 1) [] =
        places fs d (fs.entries.length + 1) [] := by
      refine places_of_added (fun l => hw.isDirAt) (fun l hl => ?_) (enough_entries fs d)
        (enough_entries fs' d)
      by_contra hnew
      exact (ho d hd l hl.1 (Bool.eq_false_iff.2 hnew)).1 hl
    refine (discover_eq_ok hd').2 ⟨fun l hdir => ?_, hplaces ▸ hsuites⟩
    cases hold : fs.isDirAt (l ++ d) with
    | true  => exact hshort l hold
    | false => exact (ho d hd l hdir hold).2

end Assay.Discovery
