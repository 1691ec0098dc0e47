import Assay.Proofs.Run.Setup
import Assay.Proofs.Text.Encoding

/-!
# Discovery — which suite a name means

The name of a suite is put together from the names on the way to its directory. No name has a slash
in it, as text no more than as bytes, so the name of the suite can be cut again at its slashes
(`splitOn_suiteName`); and where all names are text, nothing is lost in showing them. So a name
stands for one directory, with one exception: the suite of the root is called `root`, and so is that
of a directory `root` right below it (`suite_names`).
-/

namespace Assay.Discovery

open FileSystem (IsName)
open Text.Utf8 (decode? decodeLossy encode)

variable {fs : FileSystem} {root : Path} {d l m : Loc}

/-! ### Names of text -/

/-- Whether the names on the way to a directory are texts. -/
def IsText (l : Loc) : Prop := ∀ n ∈ l, (decode? n).isSome = true

/-- A name that is text is decoded without loss. -/
theorem IsText.decode? (h : IsText l) {n : Bytes} (hn : n ∈ l) :
    Text.Utf8.decode? n = some (decodeLossy n) := by
  obtain ⟨s, hs⟩ := Option.isSome_iff_exists.1 (h n hn)
  rw [hs, Text.Utf8.decodeLossy_of_decode? hs]

/-- A text that stands for an entry has no slash in it. -/
theorem slash_not_mem {n : Bytes} {s : String} (h : decode? n = some s) (hn : IsName n) :
    '/' ∉ s.toList := by
  intro hmem
  refine (Path.isSegment_of_isName hn).2.2.2 ?_
  rw [← Text.Utf8.encode_of_decode? h, encode]
  exact List.mem_flatMap.2 ⟨'/', hmem, by decide⟩

/-- Where the names are texts, the text of a way stands for no other way. -/
theorem map_decodeLossy_inj (hl : IsText l) (hm : IsText m)
    (h : l.map decodeLossy = m.map decodeLossy) : l = m := by
  induction l generalizing m with
  | nil => exact (List.map_eq_nil_iff.1 h.symm).symm
  | cons n l ih =>
    cases m with
    | nil => cases h
    | cons n' m =>
      obtain ⟨hhead, htail⟩ := List.cons.inj h
      have hn := hl.decode? List.mem_cons_self
      rw [hhead] at hn
      have hrest := ih (fun a ha => hl a (List.mem_cons_of_mem n ha))
        (fun a ha => hm a (List.mem_cons_of_mem n' ha)) htail
      rw [Text.Utf8.decode?_inj hn (hm.decode? List.mem_cons_self), hrest]

/-! ### The name of a suite -/

/-- Cut at its slashes the name of a suite gives the names on the way. -/
theorem splitOn_suiteName (hl : IsText l) (hnames : ∀ n ∈ l, IsName n) (hne : l ≠ []) :
    (suiteName (keyOf l)).toList.splitOn '/' =
      l.reverse.map fun n => (decodeLossy n).toList := by
  have hslash : "/".toList = ['/'] := rfl
  rw [suiteName_keyOf, if_neg hne, String.toList_intercalate, hslash, List.map_map]
  refine List.splitOn_intercalate '/' ?_ (by simpa using hne)
  intro cs hcs
  obtain ⟨n, hn, rfl⟩ := List.mem_map.1 hcs
  have hn := List.mem_reverse.1 hn
  exact slash_not_mem (hl.decode? hn) (hnames n hn)

/-- A directory below the root has a suite called `root` if that is its one name. -/
theorem suiteName_eq_root_iff (hl : IsText l) (hnames : ∀ n ∈ l, IsName n) (hne : l ≠ []) :
    suiteName (keyOf l) = "root" ↔ l = [encode "root"] := by
  constructor
  · intro h
    have hsplit := splitOn_suiteName hl hnames hne
    rw [h, List.splitOn_eq_singleton (by decide)] at hsplit
    obtain ⟨n, hn, hchars⟩ := List.map_eq_singleton_iff.1 hsplit.symm
    obtain rfl : l = [n] := List.reverse_eq_iff.1 hn
    have htext := hl.decode? List.mem_cons_self
    rw [String.toList_injective hchars] at htext
    rw [Text.Utf8.encode_of_decode? htext]
  · rintro rfl
    decide

/-- Two directories have suites of one name if one of them is the root and the other is called
`root` in it, and not otherwise. -/
theorem suiteName_eq_iff (hl : IsText l) (hm : IsText m) (hlnames : ∀ n ∈ l, IsName n)
    (hmnames : ∀ n ∈ m, IsName n) (hne : l ≠ m) :
    suiteName (keyOf l) = suiteName (keyOf m) ↔
      l = [] ∧ m = [encode "root"] ∨ l = [encode "root"] ∧ m = [] := by
  have hroot : suiteName (keyOf []) = "root" := by rw [suiteName_keyOf, if_pos rfl]
  have henc : [encode "root"] ≠ [] := List.cons_ne_nil _ _
  by_cases hlnil : l = []
  · subst hlnil
    rw [hroot, eq_comm, suiteName_eq_root_iff hm hmnames hne.symm]
    simp [henc.symm]
  · by_cases hmnil : m = []
    · subst hmnil
      rw [hroot, suiteName_eq_root_iff hl hlnames hlnil]
      simp [hlnil]
    · -- both names can be cut into those on the way
      have hneq : suiteName (keyOf l) ≠ suiteName (keyOf m) := by
        intro h
        have hsplit := splitOn_suiteName hl hlnames hlnil
        rw [h, splitOn_suiteName hm hmnames hmnil, List.map_reverse, List.map_reverse,
          List.reverse_inj] at hsplit
        refine hne (map_decodeLossy_inj hl hm ?_)
        refine List.map_injective_iff.2 (fun _ _ => String.toList_injective) ?_
        rw [List.map_map, List.map_map]
        exact hsplit.symm
      simp [hneq, hlnil, hmnil]

/-! ### All suites -/

/-- Whether the fixtures of a suite are those whose path goes on behind the root's with some names
and one more. -/
structure IsIn (root : Path) (parent : List Bytes) (s : Suite) : Prop where
  ne_nil : s.fixtures ≠ []
  behind : ∀ f ∈ s.fixtures, ∃ n,
    root.behind? f.directory = some (parent.map .name ++ [.name n])

/-- The fixtures of a directory have its names on their way. -/
theorem isIn_suiteAt (root : Path) (h : ∃ n, IsFixtureAt fs d (n :: l)) :
    IsIn root l.reverse (suiteAt fs root d l) := by
  obtain ⟨n, hn⟩ := h
  refine ⟨?_, fun f hf => ?_⟩
  · exact List.ne_nil_of_mem (List.mem_map_of_mem (mem_namesAt.2 hn))
  · obtain ⟨n', hn', rfl⟩ := List.mem_map.1 hf
    have hnames := isName_below (mem_namesAt.1 hn').1
    refine ⟨n', ?_⟩
    rw [fixtureAt, ← Path.below_eq_join root hnames, Path.behind?_below root hnames,
      List.reverse_cons, List.map_append]
    rfl

/-- Whether the name of a suite is that of a parent: cut at its slashes it gives the names on the
way, and it is `root` if there are none. -/
def IsNamedFor (parent : List Bytes) (s : Suite) : Prop :=
  if parent = [] then s.name = "root"
  else List.Forall₂ (fun part n => decode? n = some (String.ofList part))
    (s.name.toList.splitOn '/') parent

/-- The suite of a directory is named for the way to it. -/
theorem isNamedFor_suiteAt (fs : FileSystem) (root : Path) (d : Loc) (hl : IsText l)
    (hnames : ∀ n ∈ l, IsName n) : IsNamedFor l.reverse (suiteAt fs root d l) := by
  unfold IsNamedFor suiteAt
  split
  next hnil =>
    rw [List.reverse_eq_nil_iff.1 hnil]
    rfl
  next hnil =>
    have hne : l ≠ [] := fun h => hnil (List.reverse_eq_nil_iff.2 h)
    dsimp only
    rw [splitOn_suiteName hl hnames hne, List.forall₂_map_left_iff, List.forall₂_same]
    intro n hn
    rw [String.ofList_toList]
    exact hl.decode? (List.mem_reverse.1 hn)

/-- For a tree whose directories have names that are texts, and any path of its root: the suites
that are discovered have different parents. Two of them have the same name exactly if the parent of
the one is the root and that of the other is called `root` in it; and the name of any other suite,
cut at its slashes, gives the names of its parent behind the root. -/
theorem suite_names {suites : List Suite}
    (htext : ∀ d n l, fs.openDir root = .ok d → fs.isDirAt (n :: l ++ d) = true →
      (decode? n).isSome = true)
    (h : discover fs root = .ok suites) :
    ∃ parents : List (List Bytes), parents.Nodup ∧ List.Forall₂ (IsIn root) parents suites ∧
      List.Forall₂ IsNamedFor parents suites ∧
      ∀ (i j : Nat) (p q : List Bytes) (s t : Suite), i ≠ j →
        parents[i]? = some p → suites[i]? = some s → parents[j]? = some q → suites[j]? = some t →
        (s.name = t.name ↔ p = [] ∧ q = [encode "root"] ∨ p = [encode "root"] ∧ q = []) := by
  obtain ⟨d, dirs, hd, rfl, hsorted, hmem⟩ := exists_suitesAt h
  have hnodup : dirs.Nodup := hsorted.imp Precedes.ne
  have hdirs : ∀ l ∈ dirs, ∃ n, IsFixtureAt fs d (n :: l) := fun l => (hmem l).1
  have hnames : ∀ l ∈ dirs, ∀ n ∈ l, IsName n := by
    intro l hl
    obtain ⟨n, hn⟩ := hdirs l hl
    exact fun m hm => isName_below hn.1 m (List.mem_cons_of_mem n hm)
  have htexts : ∀ l ∈ dirs, IsText l := by
    intro l hl m hm
    obtain ⟨n, hn⟩ := hdirs l hl
    -- a directory on the way to a fixture is a directory of the tree
    obtain ⟨q, k, rfl⟩ := List.append_of_mem hm
    refine htext d m k hd (FileSystem.isDirAt_of_append (q := n :: q) ?_)
    simpa using hn.1
  refine ⟨dirs.map List.reverse, hnodup.map List.reverse_injective, ?_, ?_, ?_⟩
  · refine List.forall₂_map_left_iff.2 (List.forall₂_map_right_iff.2 (List.forall₂_same.2 ?_))
    exact fun l hl => isIn_suiteAt root (hdirs l hl)
  · refine List.forall₂_map_left_iff.2 (List.forall₂_map_right_iff.2 (List.forall₂_same.2 ?_))
    exact fun l hl => isNamedFor_suiteAt fs root d (htexts l hl) (hnames l hl)
  · intro i j p q s t hij hp hs hq ht
    rw [List.getElem?_map] at hp hs hq ht
    obtain ⟨l, hl, rfl⟩ := Option.map_eq_some_iff.1 hp
    obtain ⟨m, hm, rfl⟩ := Option.map_eq_some_iff.1 hq
    rw [hl] at hs
    rw [hm] at ht
    obtain rfl := Option.some.inj hs
    obtain rfl := Option.some.inj ht
    have hne : l ≠ m := by
      intro he
      refine hij ((List.getElem?_inj (List.getElem?_eq_some_iff.1 hl).1 hnodup).1 ?_)
      rw [hl, hm, he]
    have hlmem := List.mem_of_getElem? hl
    have hmmem := List.mem_of_getElem? hm
    rw [List.reverse_eq_nil_iff, List.reverse_eq_nil_iff, List.reverse_eq_iff, List.reverse_eq_iff]
    exact suiteName_eq_iff (htexts l hlmem) (htexts m hmmem) (hnames l hlmem) (hnames m hmmem) hne

namespace Rooted

/-- A fixture right below the root, one in a directory `root`, and one two levels down. -/
def tree : FileSystem :=
  let first := (FileSystem.empty.makeDirs (.ofString "/v/001-b")).2
  let second := (first.makeDirs (.ofString "/v/root/001-a")).2
  (second.makeDirs (.ofString "/v/é/z/002-c")).2

def suites : List Suite :=
  [⟨"root", [⟨.ofString "v/001-b"⟩]⟩, ⟨"root", [⟨.ofString "v/root/001-a"⟩]⟩,
   ⟨"é/z", [⟨.ofString "v/é/z/002-c"⟩]⟩]

theorem decode?_of_isDirAt (d : Loc) (n : Bytes) (l : Loc)
    (h : tree.isDirAt (n :: l ++ d) = true) : (decode? n).isSome = true := by
  have hall : ∀ k ∈ tree.entries.map (·.1), ∀ m ∈ k, (decode? m).isSome = true := by
    decide +kernel
  have hmem := FileSystem.mem_entries (List.cons_ne_nil n (l ++ d)) (FileSystem.isSome_of_isDirAt h)
  exact hall _ hmem n List.mem_cons_self

/-- The directory `v`. -/
def top : Loc := [encode "v"]

/-- The name of each fixture and the place of the directory that it is in. -/
def fixtures : List (Bytes × Loc) :=
  [(encode "001-b", []), (encode "001-a", [encode "root"]),
   (encode "002-c", [encode "z", encode "é"])]

theorem openDir_top : tree.openDir (.ofString "v") = .ok top := by decide +kernel

/-- The tree has these fixtures and no other. -/
theorem isFixtureAt_iff {n : Bytes} {l : Loc} :
    IsFixtureAt tree top (n :: l) ↔ (n, l) ∈ fixtures := by
  constructor
  · rintro ⟨hdir, n', r, heq, hname⟩
    obtain ⟨rfl, rfl⟩ := List.cons.inj heq
    have hall : ∀ k ∈ tree.entries.map (·.1), isFixtureName (decodeLossy (k.headD [])) = true →
        (k.headD [], k.tail.dropLast) ∈ fixtures := by decide +kernel
    have hmem := FileSystem.mem_entries (List.cons_ne_nil n (l ++ top))
      (FileSystem.isSome_of_isDirAt hdir)
    have hplace := hall _ hmem ((isFixtureName_iff n).2 hname)
    rwa [List.tail_cons, top, List.dropLast_concat] at hplace
  · intro h
    have hall : ∀ p ∈ fixtures, tree.isDirAt (p.1 :: p.2 ++ top) = true ∧
        isFixtureName (decodeLossy p.1) = true := by decide +kernel
    obtain ⟨hdir, hname⟩ := hall _ h
    exact ⟨hdir, n, l, rfl, (isFixtureName_iff n).1 hname⟩

theorem exists_discover_tree : ∃ suites, discover tree (.ofString "v") = .ok suites := by
  have hshort : ∀ l ∈ tree.entries.map (·.1), ¬ IsTooLong (.ofString "v") l.dropLast := by
    decide +kernel
  refine ⟨_, (discover_eq_ok openDir_top).2 ⟨fun l hl => ?_, rfl⟩⟩
  have hne : l ++ top ≠ [] := List.append_ne_nil_of_right_ne_nil l (List.cons_ne_nil _ _)
  have hlong := hshort _ (FileSystem.mem_entries hne (FileSystem.isSome_of_isDirAt hl))
  rwa [top, List.dropLast_concat] at hlong

/-- There is only one list of suites that is in order and has the fixtures of the tree. -/
theorem discover_tree : discover tree (.ofString "v") = .ok suites := by
  obtain ⟨found, hok⟩ := exists_discover_tree
  obtain ⟨d, dirs, names, hopen, h⟩ := exists_isCanonical hok
  obtain rfl : top = d := Except.ok.inj (openDir_top.symm.trans hopen)
  have hdirs : dirs = fixtures.map (·.2) := by
    have hsorted : (fixtures.map (·.2)).Pairwise fun l m => l.reverse < m.reverse := by
      decide +kernel
    refine eq_of_pairwise_precedes h.dirs_sorted hsorted fun l => ?_
    simp only [h.mem_dirs, isFixtureAt_iff, List.mem_map, Prod.exists, exists_eq_right]
  have hnames : ∀ p ∈ fixtures, names p.2 = [p.1] := by
    intro p hp
    have hone : ∀ p ∈ fixtures, ∀ q ∈ fixtures, q.2 = p.2 → q = p := by decide +kernel
    refine h.names_eq_singleton fun n => ?_
    rw [isFixtureAt_iff]
    constructor
    · exact fun hn => congrArg Prod.fst (hone p hp _ hn rfl)
    · rintro rfl
      exact hp
  have hsuites : found = fixtures.map fun p =>
      ⟨suiteName (keyOf p.2), [fixtureAt (.ofString "v") (p.1 :: p.2)]⟩ := by
    rw [h.suites_eq, hdirs, List.map_map]
    refine List.map_congr_left fun p hp => ?_
    rw [Function.comp_apply, hnames p hp]
    rfl
  rw [hok, hsuites]
  decide +kernel

end Rooted

/-- Three suites, two of them with the same name: one of the parents is the root and the other is
called `root` in it. -/
theorem suite_names_rooted :
    (∀ d n l, Rooted.tree.openDir (.ofString "v") = .ok d →
      Rooted.tree.isDirAt (n :: l ++ d) = true → (decode? n).isSome = true) ∧
    discover Rooted.tree (.ofString "v") = .ok Rooted.suites ∧
    ∃ p q r : List Bytes, [p, q, r].Nodup ∧
      List.Forall₂ (IsIn (.ofString "v")) [p, q, r] Rooted.suites ∧
      List.Forall₂ IsNamedFor [p, q, r] Rooted.suites ∧
      (p = [] ∧ q = [encode "root"] ∨ p = [encode "root"] ∧ q = []) := by
  have htext : ∀ d n l, Rooted.tree.openDir (.ofString "v") = .ok d →
      Rooted.tree.isDirAt (n :: l ++ d) = true → (decode? n).isSome = true :=
    fun d n l _ h => Rooted.decode?_of_isDirAt d n l h
  obtain ⟨parents, hnodup, hin, hnamed, hsame⟩ := suite_names htext Rooted.discover_tree
  obtain ⟨p, q, r, rfl⟩ := List.length_eq_three.1 hin.length_eq
  exact ⟨htext, Rooted.discover_tree, p, q, r, hnodup, hin, hnamed,
    (hsame 0 1 p q _ _ (by decide) rfl rfl rfl rfl).1 rfl⟩

end Assay.Discovery
