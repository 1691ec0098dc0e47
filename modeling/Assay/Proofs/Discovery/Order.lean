import Assay.Proofs.Discovery.Added
import Assay.Proofs.FileSystem.Change
import Mathlib.Data.Set.List

/-!
# Discovery — in one order only

Suites come in the order of their directories and fixtures in that of their identifiers, whatever
the order in which directories are listed (`discover_canonical`). Three orders work together.

* A walk takes the directories in a directory by the bytes of their names. So it comes to places in
  the order of the names on the way, compared one after another (`Precedes`): a directory before
  what is inside it (`precedes_of_below`), and all that is inside `a` before `a-b`
  (`precedes_of_siblings`).
* The order of the keys is the same order.
* Identifiers are decoded names, which may coincide. The sort by them is stable, so names that they
  do not tell apart stay in the order of the walk (`pairwise_mergeSort_by`).
-/

namespace Assay.Discovery

open Assay.Path (below)
open Text.Utf8 (decodeLossy)

/-! ### The order of places -/

/-- Whether a place comes before another: the names on the way from the top are compared one after
another, each by its bytes. -/
def Precedes (l m : Loc) : Prop := l.reverse < m.reverse

variable {fs fs' : FileSystem} {root : Path} {d l m q q' r : Loc} {n n' : Bytes} {k k' : Nat}

/-- Of two places one at most precedes the other. -/
theorem Precedes.asymm (h : Precedes l m) : ¬ Precedes m l := List.lt_asymm h

theorem Precedes.ne (h : Precedes l m) : l ≠ m := by
  rintro rfl
  exact h.asymm h

/-- There is only one order for some places. -/
theorem eq_of_pairwise_precedes {ls ms : List Loc} (hls : ls.Pairwise Precedes)
    (hms : ms.Pairwise Precedes) (h : ∀ l, l ∈ ls ↔ l ∈ ms) : ls = ms := by
  have hperm : ls.Perm ms :=
    (List.perm_ext_iff_of_nodup (hls.imp Precedes.ne) (hms.imp Precedes.ne)).2 h
  exact hperm.eq_of_pairwise (fun a b _ _ hab hba => absurd hba hab.asymm) hls hms

/-- Of two places one precedes the other. -/
theorem precedes_or (h : l ≠ m) : Precedes l m ∨ Precedes m l := by
  by_cases hlt : Precedes l m
  · exact .inl hlt
  · exact .inr (Std.lt_of_le_of_ne (List.not_lt.1 hlt) fun he => h (List.reverse_inj.1 he).symm)

/-- A directory precedes what is below it. -/
theorem precedes_of_below (hq : q ≠ []) : Precedes l (q ++ l) := by
  obtain ⟨n, t, ht⟩ := List.exists_cons_of_ne_nil (List.reverse_ne_nil_iff.2 hq)
  have hlt : l.reverse ++ [] < l.reverse ++ n :: t := List.append_left_lt (List.nil_lt_cons n t)
  rw [List.append_nil] at hlt
  rw [Precedes, List.reverse_append, ht]
  exact hlt

/-- What is below an entry precedes what is below one with a later name. -/
theorem precedes_of_siblings (h : n < n') : Precedes (q ++ n :: l) (q' ++ n' :: l) := by
  rw [Precedes, List.reverse_append, List.reverse_append, List.reverse_cons, List.reverse_cons,
    List.append_assoc, List.append_assoc]
  exact List.append_left_lt (List.cons_lt_cons_iff.2 (.inl h))

/-- Among entries of one directory their names decide. -/
theorem precedes_cons_iff : Precedes (n :: l) (n' :: l) ↔ n < n' := by
  have hsiblings : ∀ {n n'}, n < n' → Precedes ([] ++ n :: l) ([] ++ n' :: l) :=
    precedes_of_siblings
  refine ⟨fun h => ?_, hsiblings⟩
  by_contra hle
  have hne : n' ≠ n := fun he => h.ne (by rw [he])
  have hlt : n' < n := Std.lt_of_le_of_ne (List.not_lt.1 hle) hne
  exact h.asymm (hsiblings hlt)

/-! ### The order of a walk -/

/-- The directories in a directory are listed by the bytes of their names. -/
theorem pairwise_lt_folders (fs : FileSystem) (d : Loc) : (folders fs d).Pairwise (· < ·) :=
  ((pairwise_folders fs d).and (nodup_folders fs d)).imp fun h => Std.lt_of_le_of_ne h.1 h.2

/-- A walk comes to places in their order. -/
theorem pairwise_places (fs : FileSystem) (d : Loc) (k : Nat) (r : Loc) :
    (places fs d k r).Pairwise Precedes := by
  induction k generalizing r with
  | zero => exact .nil
  | succ k ih =>
    rw [places, List.pairwise_flatMap]
    constructor
    · intro n _
      refine List.pairwise_append.2 ⟨?_, ih (n :: r), fun l hl m hm => ?_⟩
      · split
        · exact List.pairwise_singleton _ _
        · exact .nil
      · split at hl
        · obtain ⟨q, hq, rfl⟩ := further_of_mem_places hm
          rw [List.mem_singleton.1 hl]
          exact precedes_of_below hq
        · cases hl
    · refine (pairwise_lt_folders fs (r ++ d)).imp fun {n n'} hlt l hl m hm => ?_
      obtain ⟨q, rfl⟩ := ends_of_mem hl
      obtain ⟨q', rfl⟩ := ends_of_mem hm
      exact precedes_of_siblings hlt

/-! ### The order of a listing -/

/-- Where the same locations are directories, the same directories are listed. -/
theorem folders_congr (h : ∀ l, fs.isDirAt l = fs'.isDirAt l) (d : Loc) :
    folders fs d = folders fs' d := by
  rw [folders_eq_filter fun n hn => (h (n :: d)).symm.trans hn, List.filter_eq_self]
  exact fun n hn => (h (n :: d)).trans (mem_folders.1 hn)

theorem mapM_congr {α β ε : Type} {f g : α → Except ε β} {as : List α}
    (h : ∀ a ∈ as, f a = g a) : as.mapM f = as.mapM g := by
  induction as with
  | nil => rfl
  | cons a as ih =>
    obtain ⟨ha, has⟩ := List.forall_mem_cons.1 h
    rw [List.mapM_cons, List.mapM_cons, ha, ih has]

/-- With enough levels a walk depends only on what is a directory. -/
theorem walk_congr (h : ∀ l, fs.isDirAt l = fs'.isDirAt l) (p : Path) (hk : Enough fs d k r)
    (hk' : Enough fs d k' r) :
    walk fs root (k + 1) p (r ++ d) = walk fs' root (k' + 1) p (r ++ d) := by
  induction k generalizing k' p r with
  | zero =>
    by_cases hlong : FileSystem.pathLimit < p.bytes.length
    · rw [walk, walk, if_pos hlong, if_pos hlong]
    · rw [walk_succ fs root 0 hlong, walk_succ fs' root k' hlong, ← folders_congr h,
        folders_of_enough hk]
      rfl
  | succ k ih =>
    by_cases hlong : FileSystem.pathLimit < p.bytes.length
    · rw [walk, walk, if_pos hlong, if_pos hlong]
    rw [walk_succ fs root (k + 1) hlong, walk_succ fs' root k' hlong, ← folders_congr h]
    refine congrArg _ (mapM_congr fun n hn => ?_)
    -- where there is a directory, a level is left for it
    cases k' with
    | zero =>
      rw [folders_of_enough hk'] at hn
      cases hn
    | succ k' =>
      have hdown := ih (p.join ⟨n⟩) (hk.down n) (hk'.down n)
      rw [List.cons_append] at hdown
      rw [visit, visit, hdown]

/-- Discovery does not depend on the order in which directories are listed. -/
theorem discover_congr (h : fs.Agree fs') (root : Path) : discover fs root = discover fs' root := by
  have hdirs : ∀ l, fs.isDirAt l = fs'.isDirAt l := fun l => by
    rw [FileSystem.isDirAt, FileSystem.isDirAt, (FileSystem.agree_iff.1 h).2 l]
  have hopen : fs.openDir root = fs'.openDir root :=
    FileSystem.openDir_same h (FileSystem.plain_nowhere fs') fun _ _ => id
  rw [discover, discover, ← hopen]
  cases hd : fs.openDir root with
  | error why => rfl
  | ok d =>
    have henough : Enough fs d fs.entries.length [] := fun q hq =>
      length_le_of_isDirAt (List.append_nil q ▸ hq)
    have henough' : Enough fs d fs'.entries.length [] := fun q hq => by
      rw [List.append_nil, hdirs] at hq
      exact length_le_of_isDirAt hq
    have hwalk : walk fs root (fs.entries.length + 1) root ([] ++ d) =
        walk fs' root (fs'.entries.length + 1) root ([] ++ d) :=
      walk_congr hdirs root henough henough'
    rw [List.nil_append] at hwalk
    simp only [hwalk]

/-! ### The order of a stable sort -/

section Stable

variable {α : Type} {a b : α} {as : List α}

/-- Of two members of a list one comes before the other. -/
theorem pair_sublist_or (ha : a ∈ as) (hb : b ∈ as) (hne : a ≠ b) :
    [a, b].Sublist as ∨ [b, a].Sublist as := by
  induction as with
  | nil => cases ha
  | cons x as ih =>
    rcases List.mem_cons.1 ha with rfl | ha' <;> rcases List.mem_cons.1 hb with rfl | hb'
    · exact absurd rfl hne
    · exact .inl ((List.singleton_sublist.2 hb').cons_cons a)
    · exact .inr ((List.singleton_sublist.2 ha').cons_cons b)
    · exact (ih ha' hb').imp (List.Sublist.cons x) (List.Sublist.cons x)

/-- Two members of a list without repetitions come in one order only. -/
theorem not_pair_sublist_swap (h : as.Nodup) (hab : [a, b].Sublist as) :
    ¬ [b, a].Sublist as := by
  intro hba
  induction as with
  | nil => cases hab
  | cons x as ih =>
    obtain ⟨hx, has⟩ := List.nodup_cons.1 h
    cases hab with
    | cons _ hab =>
      cases hba with
      | cons _ hba => exact ih has hab hba
      | cons_cons _ hba => exact hx (hab.subset (by simp))
    | cons_cons _ hab =>
      cases hba with
      | cons _ hba => exact hx (hba.subset (by simp))
      | cons_cons _ hba => exact hx (hba.subset (by simp))

/-- A stable sort keeps the order of what it does not tell apart. -/
theorem pairwise_mergeSort_by {R : α → α → Prop} (f : α → String) (h : as.Pairwise R)
    (hnodup : as.Nodup) :
    (as.mergeSort fun a b => decide (f a ≤ f b)).Pairwise fun a b =>
      f a < f b ∨ f a = f b ∧ R a b := by
  have htrans : ∀ a b c : α, decide (f a ≤ f b) = true → decide (f b ≤ f c) = true →
      decide (f a ≤ f c) = true := fun a b c hab hbc =>
    decide_eq_true (String.le_trans (of_decide_eq_true hab) (of_decide_eq_true hbc))
  have htotal : ∀ a b : α, (decide (f a ≤ f b) || decide (f b ≤ f a)) = true := fun a b => by
    rw [← Bool.decide_or]
    exact decide_eq_true (String.le_total (f a) (f b))
  have hperm := List.mergeSort_perm as fun a b => decide (f a ≤ f b)
  have hnodup' := hperm.nodup_iff.2 hnodup
  refine List.pairwise_iff_forall_sublist.2 fun {a b} hab => ?_
  have hle : f a ≤ f b := of_decide_eq_true
    (List.pairwise_iff_forall_sublist.1 (List.pairwise_mergeSort htrans htotal as) hab)
  by_cases heq : f a = f b
  · refine .inr ⟨heq, List.pairwise_iff_forall_sublist.1 h ?_⟩
    have hne : a ≠ b := List.pairwise_iff_forall_sublist.1 hnodup' hab
    have hmem : ∀ c ∈ [a, b], c ∈ as := fun c hc => hperm.subset (hab.subset hc)
    obtain hab' | hba := pair_sublist_or (hmem a (by simp)) (hmem b (by simp)) hne
    · exact hab'
    · have hswap := List.pair_sublist_mergeSort htrans htotal
        (decide_eq_true (heq ▸ String.le_refl (f a))) hba
      exact absurd hswap (not_pair_sublist_swap hnodup' hab)
  · exact .inl (Std.lt_of_le_of_ne hle heq)

end Stable

/-! ### The order of keys -/

/-- The key of the suite of a directory. -/
def keyOf (l : Loc) : List Component := l.reverse.map .name

theorem keyOf_inj : keyOf l = keyOf m ↔ l = m := map_name_inj

/-- Keys are in the order of places. -/
theorem precedes_of_keyLE (hle : keyLE (keyOf l) (keyOf m) = true) (hne : l ≠ m) :
    Precedes l m := by
  refine (precedes_or hne).resolve_right fun hlt => ?_
  have hkeys : ∀ l, (keyOf l).map Component.key = l.reverse.map (3 :: ·) := fun l => by
    rw [keyOf, List.map_map]
    rfl
  rw [keyLE, hkeys, hkeys] at hle
  have hmap : m.reverse.map (3 :: ·) < l.reverse.map (3 :: ·) :=
    List.map_lt (fun a b hab => List.cons_lt_cons_iff.2 (.inr ⟨rfl, hab⟩)) hlt
  exact absurd hmap (List.not_lt.2 (of_decide_eq_true hle))

/-- The keys of suites come in order. -/
theorem pairwise_keys (found : List Found) : (keys found).Pairwise (keyLE · · = true) := by
  refine List.pairwise_mergeSort (fun a b c hab hbc => ?_) (fun a b => ?_) _
  · exact decide_eq_true (List.le_trans (of_decide_eq_true hab) (of_decide_eq_true hbc))
  · rw [keyLE, keyLE, ← Bool.decide_or]
    exact decide_eq_true (List.le_total _ _)

/-- The keys of places are those of their directories, which come in order. -/
theorem exists_dirs (root : Path) {ls : List Loc} (h : ∀ l ∈ ls, IsFixtureAt fs d l) :
    ∃ dirs : List Loc, keys (ls.map (foundAt root)) = dirs.map keyOf ∧ dirs.Pairwise Precedes ∧
      ∀ l, l ∈ dirs ↔ ∃ m ∈ ls, m.tail = l := by
  have hmem : ∀ key, key ∈ keys (ls.map (foundAt root)) ↔ ∃ m ∈ ls, keyOf m.tail = key := by
    intro key
    rw [mem_keys]
    constructor
    · rintro ⟨p, hp, rfl⟩
      obtain ⟨m, hm, rfl⟩ := List.mem_map.1 hp
      exact ⟨m, hm, (congrArg Found.parent ((h m hm).foundAt_eq root)).symm⟩
    · rintro ⟨m, hm, rfl⟩
      exact ⟨_, List.mem_map_of_mem hm, congrArg Found.parent ((h m hm).foundAt_eq root)⟩
  obtain ⟨dirs, hdirs⟩ : keys (ls.map (foundAt root)) ∈ Set.range (List.map keyOf) := by
    rw [Set.range_list_map]
    intro key hkey
    obtain ⟨m, -, rfl⟩ := (hmem key).1 hkey
    exact ⟨_, rfl⟩
  refine ⟨dirs, hdirs.symm, ?_, fun l => ?_⟩
  · have hsorted := pairwise_keys (ls.map (foundAt root))
    have hnodup := nodup_keys (ls.map (foundAt root))
    rw [← hdirs, List.pairwise_map] at hsorted
    rw [← hdirs] at hnodup
    exact (hsorted.and hnodup.of_map).imp fun h => precedes_of_keyLE h.1 h.2
  · rw [← List.mem_map_of_injective fun _ _ => keyOf_inj.1, hdirs, hmem]
    simp only [keyOf_inj]

/-! ### The order of fixtures -/

/-- The names of the fixtures in a directory, by the identifiers that they give and then by their
bytes. -/
def namesAt (fs : FileSystem) (d l : Loc) : List Bytes :=
  ((folders fs (l ++ d)).filter fun n => isFixtureName (decodeLossy n)).mergeSort
    fun n n' => decide (decodeLossy n ≤ decodeLossy n')

/-- The fixtures in a directory are its directories with names of fixtures. -/
theorem isFixtureAt_cons_iff :
    IsFixtureAt fs d (n :: l) ↔
      n ∈ (folders fs (l ++ d)).filter fun n => isFixtureName (decodeLossy n) := by
  rw [List.mem_filter, mem_folders, isFixtureName_iff]
  refine and_congr_right fun _ => ?_
  constructor
  · rintro ⟨n', r, heq, hname⟩
    obtain ⟨rfl, rfl⟩ := List.cons.inj heq
    exact hname
  · intro hname
    exact ⟨n, l, rfl, hname⟩

theorem mem_namesAt : n ∈ namesAt fs d l ↔ IsFixtureAt fs d (n :: l) := by
  rw [namesAt, List.mem_mergeSort, isFixtureAt_cons_iff]

/-- The names of fixtures come by their identifiers, and where these are the same by their bytes. -/
theorem pairwise_namesAt (fs : FileSystem) (d l : Loc) :
    (namesAt fs d l).Pairwise fun n n' =>
      decodeLossy n < decodeLossy n' ∨ decodeLossy n = decodeLossy n' ∧ n < n' :=
  pairwise_mergeSort_by decodeLossy ((pairwise_lt_folders fs (l ++ d)).filter _)
    ((nodup_folders fs (l ++ d)).filter _)

/-- The places of a walk that are in one directory, by their names. -/
theorem filter_tail_eq {ls : List Loc} (hmem : ∀ l, l ∈ ls ↔ IsFixtureAt fs d l)
    (hsorted : ls.Pairwise Precedes) (l : Loc) :
    ls.filter (fun m => m.tail = l) =
      ((folders fs (l ++ d)).filter fun n => isFixtureName (decodeLossy n)).map (· :: l) := by
  refine eq_of_pairwise_precedes (hsorted.filter _) ?_ fun m => ?_
  · rw [List.pairwise_map]
    exact ((pairwise_lt_folders fs (l ++ d)).filter _).imp precedes_cons_iff.2
  · rw [List.mem_filter, hmem, List.mem_map]
    constructor
    · rintro ⟨hm, htail⟩
      obtain ⟨-, n, r, rfl, -⟩ := id hm
      obtain rfl : r = l := of_decide_eq_true htail
      exact ⟨n, isFixtureAt_cons_iff.1 hm, rfl⟩
    · rintro ⟨n, hn, rfl⟩
      exact ⟨isFixtureAt_cons_iff.2 hn, decide_eq_true rfl⟩

/-- The suite of a directory. -/
def suiteAt (fs : FileSystem) (root : Path) (d l : Loc) : Suite :=
  ⟨suiteName (keyOf l), (namesAt fs d l).map fun n => fixtureAt root (n :: l)⟩

/-- The identifier of a fixture is its name as text. -/
theorem identifier_fixtureAt (h : IsFixtureAt fs d (n :: l)) :
    (fixtureAt root (n :: l)).identifier = decodeLossy n := by
  have hnames := isName_below h.1
  rw [fixtureAt, Fixture.identifier, ← Path.below_eq_join root hnames, Path.displayName, below,
    Path.fileName?_join _ (hnames n List.mem_cons_self)]
  rfl

/-- The suite of a directory's key is the suite of the directory. -/
theorem suiteOf_keyOf {ls : List Loc} (hmem : ∀ l, l ∈ ls ↔ IsFixtureAt fs d l)
    (hsorted : ls.Pairwise Precedes) (l : Loc) :
    suiteOf (ls.map (foundAt root)) (keyOf l) = suiteAt fs root d l := by
  have hfilter : (ls.map (foundAt root)).filter (fun p => p.parent = keyOf l) =
      (ls.filter fun m => m.tail = l).map (foundAt root) := by
    rw [List.filter_map]
    refine congrArg _ (List.filter_congr fun m hm => ?_)
    have hparent := congrArg Found.parent (((hmem m).1 hm).foundAt_eq root)
    simp only [Function.comp_apply, hparent]
    exact decide_eq_decide.2 keyOf_inj
  have hfixtures : ((ls.filter fun m => m.tail = l).map (foundAt root)).map (·.fixture) =
      ((folders fs (l ++ d)).filter fun n => isFixtureName (decodeLossy n)).map
        fun n => fixtureAt root (n :: l) := by
    rw [filter_tail_eq hmem hsorted, List.map_map, List.map_map]
    refine List.map_congr_left fun n hn => ?_
    exact congrArg Found.fixture ((isFixtureAt_cons_iff.2 hn).foundAt_eq root)
  rw [suiteOf, suiteAt, Suite.ofFixtures, hfilter, hfixtures, namesAt]
  refine congrArg _ (List.map_mergeSort fun n hn n' hn' => ?_).symm
  rw [identifier_fixtureAt (isFixtureAt_cons_iff.2 hn),
    identifier_fixtureAt (isFixtureAt_cons_iff.2 hn')]

/-- A fixture that was discovered is at a place below the root, in the suite of the directory that it
is in. -/
theorem place_of_discover {suites : List Suite} {s : Suite} {f : Fixture}
    (h : discover fs root = .ok suites) (hs : s ∈ suites) (hf : f ∈ s.fixtures) :
    ∃ d n l, fs.openDir root = .ok d ∧ IsFixtureAt fs d (n :: l) ∧ f = fixtureAt root (n :: l) ∧
      s.name = suiteName (keyOf l) := by
  obtain ⟨d, hd⟩ := exists_openDir h
  obtain ⟨-, rfl⟩ := (discover_eq_ok hd).1 h
  rw [group_eq] at hs
  obtain ⟨key, -, rfl⟩ := List.mem_map.1 hs
  obtain ⟨p, hp, hkey, hfixture⟩ := mem_suiteOf.1 hf
  obtain ⟨m, hm, rfl⟩ := List.mem_map.1 hp
  have hm := (mem_places_of_enough (enough_entries fs d)).1 hm
  have hfound := hm.foundAt_eq root
  obtain ⟨-, n, l, rfl, -⟩ := id hm
  rw [hfound] at hkey hfixture
  exact ⟨d, n, l, hd, hm, hfixture.symm, congrArg suiteName hkey.symm⟩

/-! ### The order of suites -/

/-- Whether there is one suite for each of some directories, in this order, with the fixtures that
have some names there. -/
structure IsCanonical (fs : FileSystem) (root : Path) (d : Loc) (dirs : List Loc)
    (names : Loc → List Bytes) (suites : List Suite) : Prop where
  suites_eq : suites = dirs.map fun l =>
    ⟨suiteName (keyOf l), (names l).map fun n => fixtureAt root (n :: l)⟩
  /-- The directories are those with a fixture in them. -/
  mem_dirs : ∀ l, l ∈ dirs ↔ ∃ n, IsFixtureAt fs d (n :: l)
  mem_names : ∀ l n, n ∈ names l ↔ IsFixtureAt fs d (n :: l)
  identifier : ∀ l, ∀ n ∈ names l, (fixtureAt root (n :: l)).identifier = decodeLossy n
  dirs_sorted : dirs.Pairwise Precedes
  /-- Fixtures are in the order of their identifiers; names with the same one are in the order of
  their bytes. -/
  names_sorted : ∀ l, (names l).Pairwise fun n n' =>
    decodeLossy n < decodeLossy n' ∨ decodeLossy n = decodeLossy n' ∧ n < n'
  root_first : [] ∈ dirs → dirs.head? = some []
  /-- A directory comes before what is below it. -/
  below_later : ∀ l q, q ≠ [] → l ∈ dirs → q ++ l ∈ dirs → [l, q ++ l].Sublist dirs
  /-- What is below one of two entries of a directory comes before what is below the other if the
  bytes of its name do. -/
  siblings_by_name : ∀ l n n' q q', n < n' → q ++ n :: l ∈ dirs → q' ++ n' :: l ∈ dirs →
    [q ++ n :: l, q' ++ n' :: l].Sublist dirs

/-- In an ordered list what precedes comes before. -/
theorem pair_sublist_of_precedes {dirs : List Loc} (hsorted : dirs.Pairwise Precedes)
    (hl : l ∈ dirs) (hm : m ∈ dirs) (h : Precedes l m) : [l, m].Sublist dirs := by
  refine (pair_sublist_or hl hm h.ne).resolve_right fun hswap => ?_
  exact h.asymm (List.pairwise_iff_forall_sublist.1 hsorted hswap)

/-- In an ordered list the root comes first. -/
theorem head?_of_precedes {dirs : List Loc} (hsorted : dirs.Pairwise Precedes)
    (h : [] ∈ dirs) : dirs.head? = some [] := by
  cases dirs with
  | nil => cases h
  | cons l dirs =>
    obtain rfl | hin := List.mem_cons.1 h
    · rfl
    · exact absurd (List.rel_of_pairwise_cons hsorted hin) (List.not_lt_nil _)

/-- There is one suite for each directory with a fixture in it, in the order of these. -/
theorem exists_suitesAt {suites : List Suite} (h : discover fs root = .ok suites) :
    ∃ (d : Loc) (dirs : List Loc), fs.openDir root = .ok d ∧
      suites = dirs.map (suiteAt fs root d) ∧ dirs.Pairwise Precedes ∧
      ∀ l, l ∈ dirs ↔ ∃ n, IsFixtureAt fs d (n :: l) := by
  obtain ⟨d, hd⟩ := exists_openDir h
  obtain ⟨-, rfl⟩ := (discover_eq_ok hd).1 h
  have hmem : ∀ l, l ∈ places fs d (fs.entries.length + 1) [] ↔ IsFixtureAt fs d l := fun l =>
    mem_places_of_enough (enough_entries fs d)
  have hplaces := pairwise_places fs d (fs.entries.length + 1) []
  obtain ⟨dirs, hdirs, hsorted, hmemdirs⟩ := exists_dirs root fun l => (hmem l).1
  refine ⟨d, dirs, hd, ?_, hsorted, fun l => ?_⟩
  · rw [group_eq, hdirs, List.map_map]
    exact List.map_congr_left fun l _ => suiteOf_keyOf hmem hplaces l
  · rw [hmemdirs]
    constructor
    · rintro ⟨m, hm, rfl⟩
      obtain ⟨-, n, r, rfl, -⟩ := id ((hmem m).1 hm)
      exact ⟨n, (hmem _).1 hm⟩
    · rintro ⟨n, hn⟩
      exact ⟨n :: l, (hmem _).2 hn, rfl⟩

/-- What is discovered is in order, whatever the tree. -/
theorem exists_isCanonical {suites : List Suite} (h : discover fs root = .ok suites) :
    ∃ d dirs names, fs.openDir root = .ok d ∧ IsCanonical fs root d dirs names suites := by
  obtain ⟨d, dirs, hd, hsuites, hsorted, hmem⟩ := exists_suitesAt h
  exact ⟨d, dirs, namesAt fs d, hd, hsuites, hmem, fun l n => mem_namesAt,
    fun l n hn => identifier_fixtureAt (mem_namesAt.1 hn), hsorted, pairwise_namesAt fs d,
    head?_of_precedes hsorted,
    fun l q hq hl hm => pair_sublist_of_precedes hsorted hl hm (precedes_of_below hq),
    fun l n n' q q' hlt hl hm => pair_sublist_of_precedes hsorted hl hm (precedes_of_siblings hlt)⟩

/-- A directory with one fixture has one name. -/
theorem IsCanonical.names_eq_singleton {dirs : List Loc} {names : Loc → List Bytes}
    {suites : List Suite} (h : IsCanonical fs root d dirs names suites)
    (hn : ∀ n', IsFixtureAt fs d (n' :: l) ↔ n' = n) : names l = [n] := by
  have hnodup : (names l).Nodup := (h.names_sorted l).imp fun hlt he => by
    subst he
    exact hlt.elim (String.lt_irrefl _) fun hlt => List.lt_irrefl _ hlt.2
  refine List.perm_singleton.1 ((List.perm_ext_iff_of_nodup hnodup (List.nodup_singleton n)).2
    fun n' => ?_)
  rw [h.mem_names, hn, List.mem_singleton]

/-- The same is discovered in whatever order directories are listed. Suites come in the order of
their directories, which is that of the names on the way compared one after another; so the suite of
the root comes first, a directory before what is below it, and `a/b` before `a-b`. The fixtures of a
suite come in the order of their identifiers, and where these are the same in that of their
names. -/
theorem discover_canonical (fs : FileSystem) (root : Path) :
    (∀ fs' : FileSystem, fs'.cwd = fs.cwd → (∀ l, fs'.get? l = fs.get? l) →
      discover fs' root = discover fs root) ∧
    ∀ suites, discover fs root = .ok suites → ∃ d dirs names,
      fs.openDir root = .ok d ∧ IsCanonical fs root d dirs names suites :=
  ⟨fun _ hcwd hget => discover_congr (FileSystem.agree_iff.2 ⟨hcwd, hget⟩) root,
    fun _ hok => exists_isCanonical hok⟩

/-! ### Two listings of one tree -/

namespace Listed

def a : Bytes := [0x61]
def b : Bytes := [0x62]
def aDashB : Bytes := [0x61, 0x2D, 0x62]
def fixture : Bytes := [0x30, 0x30, 0x31]

/-- The names of two fixtures that have the same identifier: the last byte is no text. -/
def lower : Bytes := fixture ++ [0xFE]
def upper : Bytes := fixture ++ [0xFF]

/-- The fixtures `a/b/001` and `a-b/001`. -/
def base : FileSystem :=
  ((((FileSystem.empty.insert a [] .dir (by decide) (by decide) (by decide)).insert
    b [a] .dir (by decide) (by decide) (by decide)).insert
    fixture [b, a] .dir (by decide) (by decide) (by decide)).insert
    aDashB [] .dir (by decide) (by decide) (by decide)).insert
    fixture [aDashB] .dir (by decide) (by decide) (by decide)

/-- Two more fixtures, one of them listed before the other. -/
def forward : FileSystem :=
  (base.insert upper [] .dir (by decide) (by decide) (by decide)).insert
    lower [] .dir (by decide) (by decide) (by decide)

/-- The same fixtures the other way round. -/
def backward : FileSystem :=
  (base.insert lower [] .dir (by decide) (by decide) (by decide)).insert
    upper [] .dir (by decide) (by decide) (by decide)

def here : Path := ⟨[Path.dot]⟩

/-- The two listings are of one tree. -/
theorem get?_backward (l : Loc) : backward.get? l = forward.get? l := by
  rw [backward, forward, FileSystem.get?_insert, FileSystem.get?_insert, FileSystem.get?_insert,
    FileSystem.get?_insert]
  by_cases hlower : l = [lower]
  · subst hlower
    decide
  · rw [if_neg hlower, if_neg hlower]

theorem discover_forward : ∃ suites, discover forward here = .ok suites := by
  have hopen : forward.openDir here = .ok [] := by decide +kernel
  have hshort : ∀ l ∈ [] :: forward.entries.map (·.1), ¬ IsTooLong here l := by decide +kernel
  refine ⟨_, (discover_eq_ok hopen).2 ⟨fun l hl => hshort l ?_, rfl⟩⟩
  rw [List.append_nil] at hl
  obtain rfl | hne := eq_or_ne l []
  · exact List.mem_cons_self
  · exact List.mem_cons_of_mem _ (FileSystem.mem_entries hne (FileSystem.isSome_of_isDirAt hl))

theorem isFixtureAt_forward {l : Loc} (h : forward.isDirAt (fixture :: l ++ []) = true) :
    IsFixtureAt forward [] (fixture :: l) :=
  ⟨h, fixture, l, rfl, 0x30, 0x30, 0x31, [], rfl, ⟨by decide, by decide⟩, ⟨by decide, by decide⟩,
    ⟨by decide, by decide⟩⟩

/-- Two listings come to the same, with `a/b` before `a-b`. -/
theorem canonical_of_two_listings :
    discover backward here = discover forward here ∧
      ∃ suites d dirs names, discover forward here = .ok suites ∧
        IsCanonical forward here d dirs names suites ∧ [[b, a], [aDashB]].Sublist dirs := by
  obtain ⟨hlisted, hordered⟩ := discover_canonical forward here
  refine ⟨hlisted backward rfl get?_backward, ?_⟩
  obtain ⟨suites, hok⟩ := discover_forward
  obtain ⟨d, dirs, names, hopen, hcanonical⟩ := hordered suites hok
  have hd : d = [] := Except.ok.inj (hopen.symm.trans (by decide +kernel))
  subst hd
  have hab : [b, a] ∈ dirs := (hcanonical.mem_dirs _).2 ⟨_, isFixtureAt_forward (by decide)⟩
  have hdash : [aDashB] ∈ dirs := (hcanonical.mem_dirs _).2 ⟨_, isFixtureAt_forward (by decide)⟩
  exact ⟨suites, [], dirs, names, hok, hcanonical,
    hcanonical.siblings_by_name [] a aDashB [b] [] (by decide) hab hdash⟩

end Listed

end Assay.Discovery
