import Assay.Proofs.Discovery.Walk
import Assay.Proofs.FileSystem.Lookup

/-!
# Discovery — exactly the fixtures there are

The suites of a tree hold one fixture for each real directory below the root whose name starts with
three digits, and no other; those with the same parent are together (`discover_exact`).

* `group` puts together what was found by its keys: it loses nothing (`mem_group`), doubles nothing
  (`nodup_group`), makes no empty suite (`ne_nil_of_mem_group`) and mixes no keys
  (`group_index_iff`).
* The key of a place are the names on the way to its directory (`parent_foundAt`), so the same key
  means the same directory.
* All this takes a listing of each directory. The walk stops at one whose path is too long for that,
  and then there are no suites at all (`discover_fails_below_long_root`).
-/

namespace Assay

namespace Discovery

/-! ### Suites by keys -/

/-- The keys of what was found, in order, each once. -/
def keys (found : List Found) : List (List Component) :=
  (found.map (·.parent)).eraseDups.mergeSort keyLE

/-- The suite of a key. -/
def suiteOf (found : List Found) (key : List Component) : Suite :=
  .ofFixtures (suiteName key) ((found.filter (·.parent = key)).map (·.fixture))

variable {found : List Found} {key : List Component} {f : Fixture}

theorem group_eq (found : List Found) : group found = (keys found).map (suiteOf found) := rfl

/-- The keys are those of what was found. -/
theorem mem_keys : key ∈ keys found ↔ ∃ p ∈ found, p.parent = key := by
  rw [keys, List.mem_mergeSort, List.mem_eraseDups, List.mem_map]

theorem nodup_eraseDups {α : Type} [BEq α] [LawfulBEq α] : ∀ as : List α, as.eraseDups.Nodup
  | []      => List.nodup_nil
  | a :: as => by
    rw [List.eraseDups_cons, List.nodup_cons]
    refine ⟨fun ha => ?_, nodup_eraseDups _⟩
    have hne := List.of_mem_filter (List.mem_eraseDups.1 ha)
    rw [beq_self_eq_true] at hne
    cases hne
  termination_by as => as.length
  decreasing_by exact Nat.lt_succ_of_le (List.length_filter_le _ _)

/-- Each key is there once. -/
theorem nodup_keys (found : List Found) : (keys found).Nodup :=
  (List.mergeSort_perm _ _).nodup_iff.2 (nodup_eraseDups _)

/-- Sorting aside, a suite holds what was found with its key. -/
theorem suiteOf_perm (found : List Found) (key : List Component) :
    (suiteOf found key).fixtures.Perm ((found.filter (·.parent = key)).map (·.fixture)) :=
  List.mergeSort_perm _ _

/-- A suite holds what was found with its key. -/
theorem mem_suiteOf :
    f ∈ (suiteOf found key).fixtures ↔ ∃ p ∈ found, p.parent = key ∧ p.fixture = f := by
  rw [(suiteOf_perm found key).mem_iff, List.mem_map]
  refine exists_congr fun p => ?_
  rw [List.mem_filter, decide_eq_true_iff, and_assoc]

/-- What was found is in the suites, and nothing else is. -/
theorem mem_group : f ∈ (group found).flatMap (·.fixtures) ↔ f ∈ found.map (·.fixture) := by
  rw [List.mem_flatMap, group_eq, List.mem_map]
  constructor
  · rintro ⟨s, hs, hf⟩
    obtain ⟨key, -, rfl⟩ := List.mem_map.1 hs
    obtain ⟨p, hp, -, rfl⟩ := mem_suiteOf.1 hf
    exact ⟨p, hp, rfl⟩
  · rintro ⟨p, hp, rfl⟩
    have hkey : p.parent ∈ keys found := mem_keys.2 ⟨p, hp, rfl⟩
    exact ⟨suiteOf found p.parent, List.mem_map_of_mem hkey, mem_suiteOf.2 ⟨p, hp, rfl, rfl⟩⟩

/-- A fixture that was found once has one key. -/
theorem parent_eq_of_fixture_eq (h : (found.map (·.fixture)).Nodup) {p q : Found} (hp : p ∈ found)
    (hq : q ∈ found) (e : p.fixture = q.fixture) : p.parent = q.parent :=
  congrArg Found.parent (List.inj_on_of_nodup_map h hp hq e)

/-- If nothing was found twice, nothing is twice in the suites. -/
theorem nodup_group (h : (found.map (·.fixture)).Nodup) :
    ((group found).flatMap (·.fixtures)).Nodup := by
  rw [group_eq, List.flatMap_map, List.nodup_flatMap]
  constructor
  · intro key _
    exact (suiteOf_perm found key).nodup_iff.2 (h.sublist (List.filter_sublist.map _))
  · refine (nodup_keys found).imp fun {key key'} hne => ?_
    refine List.disjoint_left.2 fun f hf hf' => ?_
    obtain ⟨p, hp, rfl, rfl⟩ := mem_suiteOf.1 hf
    obtain ⟨q, hq, rfl, e⟩ := mem_suiteOf.1 hf'
    exact hne (parent_eq_of_fixture_eq h hp hq e.symm)

/-- No suite is empty. -/
theorem ne_nil_of_mem_group {s : Suite} (hs : s ∈ group found) : s.fixtures ≠ [] := by
  rw [group_eq] at hs
  obtain ⟨key, hkey, rfl⟩ := List.mem_map.1 hs
  obtain ⟨p, hp, hparent⟩ := mem_keys.1 hkey
  exact List.ne_nil_of_mem (mem_suiteOf.2 ⟨p, hp, hparent, rfl⟩)

/-- Two fixtures are in the same suite exactly if they have the same key. -/
theorem group_index_iff (h : (found.map (·.fixture)).Nodup) {i j : Nat} {s t : Suite}
    (hs : (group found)[i]? = some s) (ht : (group found)[j]? = some t) {p q : Found}
    (hp : p ∈ found) (hq : q ∈ found) (hps : p.fixture ∈ s.fixtures)
    (hqt : q.fixture ∈ t.fixtures) : i = j ↔ p.parent = q.parent := by
  rw [group_eq, List.getElem?_map] at hs ht
  obtain ⟨key, hkey, rfl⟩ := Option.map_eq_some_iff.1 hs
  obtain ⟨key', hkey', rfl⟩ := Option.map_eq_some_iff.1 ht
  obtain ⟨p', hp', rfl, ep⟩ := mem_suiteOf.1 hps
  obtain ⟨q', hq', rfl, eq⟩ := mem_suiteOf.1 hqt
  rw [← parent_eq_of_fixture_eq h hp' hp ep, ← parent_eq_of_fixture_eq h hq' hq eq]
  obtain ⟨hi, hi'⟩ := List.getElem?_eq_some_iff.1 hkey
  obtain ⟨hj, hj'⟩ := List.getElem?_eq_some_iff.1 hkey'
  rw [← hi', ← hj']
  exact ((nodup_keys found).getElem_inj_iff).symm

/-! ### Keys and paths of places -/

open FileSystem (IsName)
open Assay.Path (below relative)

variable {fs : FileSystem} {d : Loc}

/-- The fixture at a place: its directory is the root joined with the names on the way. -/
def fixtureAt (root : Path) (l : Loc) : Fixture := ⟨root.join (relative l)⟩

/-- The names on the way to a real directory below another. -/
theorem isName_below {l : Loc} (h : fs.isDirAt (l ++ d) = true) : ∀ n ∈ l, IsName n :=
  fun n hn =>
    FileSystem.isName_of_mem (FileSystem.isSome_of_isDirAt h) n (List.mem_append_left d hn)

/-- The key of what was found at a place are the names on the way to its directory. -/
theorem parent_foundAt (root : Path) {l : Loc} (h : ∀ n ∈ l, IsName n) :
    (foundAt root l).parent = l.tail.reverse.map .name := by
  have htail : ∀ n ∈ l.tail, IsName n := fun n hn => h n (List.mem_of_mem_tail hn)
  rw [foundAt, parentKey, Path.behind?_below root htail]
  rfl

/-- What was found at a place is the fixture with the names on the way in its path. -/
theorem fixture_foundAt (root : Path) {n : Bytes} {l : Loc} (h : ∀ m ∈ n :: l, IsName m) :
    (foundAt root (n :: l)).fixture = fixtureAt root (n :: l) :=
  congrArg Fixture.mk (Path.below_eq_join root h)

/-- The names of a place can be read off again. -/
theorem map_name_inj {l m : Loc} :
    l.reverse.map Component.name = m.reverse.map Component.name ↔ l = m := by
  have hinj : Function.Injective Component.name := fun _ _ h => Component.name.inj h
  rw [hinj.list_map.eq_iff, List.reverse_inj]

/-- Different places have different paths. -/
theorem below_inj {root : Path} {l m : Loc} (hl : ∀ n ∈ l, IsName n) (hm : ∀ n ∈ m, IsName n)
    (h : below root l = below root m) : l = m := by
  have hkeys : some (l.reverse.map Component.name) = some (m.reverse.map Component.name) := by
    rw [← Path.behind?_below root hl, h, Path.behind?_below root hm]
  exact map_name_inj.1 (Option.some.inj hkeys)

/-- Whether suites hold the fixtures below a directory, which `root` leads to. -/
structure IsExact (fs : FileSystem) (root : Path) (d : Loc) (suites : List Suite) : Prop where
  /-- Each real directory whose name starts with three digits has a fixture. -/
  complete : ∀ l, IsFixtureAt fs d l → fixtureAt root l ∈ suites.flatMap (·.fixtures)
  /-- No other fixture is there, and no two directories share one. -/
  sound : ∀ f ∈ suites.flatMap (·.fixtures), ∃! l, IsFixtureAt fs d l ∧ f = fixtureAt root l
  once : (suites.flatMap (·.fixtures)).Nodup
  identifier : ∀ n r, IsFixtureAt fs d (n :: r) →
    (fixtureAt root (n :: r)).identifier = Text.Utf8.decodeLossy n
  /-- Fixtures are in the same suite exactly if their directories have the same parent. -/
  together : ∀ (i j : Nat) (s t : Suite), suites[i]? = some s → suites[j]? = some t →
    ∀ l m, IsFixtureAt fs d l → IsFixtureAt fs d m →
      fixtureAt root l ∈ s.fixtures → fixtureAt root m ∈ t.fixtures → (i = j ↔ l.tail = m.tail)
  inhabited : ∀ s ∈ suites, s.fixtures ≠ []

/-- A fixture is below the root, under names. -/
theorem IsFixtureAt.foundAt_eq {l : Loc} (root : Path) (h : IsFixtureAt fs d l) :
    foundAt root l = ⟨l.tail.reverse.map .name, fixtureAt root l⟩ := by
  obtain ⟨hdir, n, r, rfl, -⟩ := h
  have hnames := isName_below hdir
  exact congrArg₂ Found.mk (parent_foundAt root hnames) (fixture_foundAt root hnames)

/-- Two places do not have the same fixture. -/
theorem IsFixtureAt.inj {root : Path} {l m : Loc} (hl : IsFixtureAt fs d l)
    (hm : IsFixtureAt fs d m) (h : fixtureAt root l = fixtureAt root m) : l = m := by
  have hpath : below root l = below root m := by
    have hfound := congrArg Found.fixture (hl.foundAt_eq root)
    have hfound' := congrArg Found.fixture (hm.foundAt_eq root)
    exact congrArg Fixture.directory ((hfound.trans h).trans hfound'.symm)
  exact below_inj (isName_below hl.1) (isName_below hm.1) hpath

/-- A list of all places of fixtures makes exact suites. -/
theorem exact_group {root : Path} {ls : List Loc} (hmem : ∀ l, l ∈ ls ↔ IsFixtureAt fs d l)
    (hnodup : ls.Nodup) : IsExact fs root d (group (ls.map (foundAt root))) := by
  have hfixtures : (ls.map (foundAt root)).map (·.fixture) = ls.map (fixtureAt root) := by
    rw [List.map_map]
    refine List.map_congr_left fun l hl => ?_
    exact congrArg Found.fixture (((hmem l).1 hl).foundAt_eq root)
  have honce : ((ls.map (foundAt root)).map (·.fixture)).Nodup := by
    rw [hfixtures]
    refine (List.nodup_map_iff_inj_on hnodup).2 fun l hl m hm h => ?_
    exact ((hmem l).1 hl).inj ((hmem m).1 hm) h
  refine ⟨fun l hl => ?_, fun f hf => ?_, nodup_group honce, fun n r h => ?_,
    fun i j s t hs ht l m hl hm hls hmt => ?_, fun s hs => ne_nil_of_mem_group hs⟩
  · rw [mem_group, hfixtures]
    exact List.mem_map_of_mem ((hmem l).2 hl)
  · rw [mem_group, hfixtures] at hf
    obtain ⟨l, hl, rfl⟩ := List.mem_map.1 hf
    have hl := (hmem l).1 hl
    exact ⟨l, ⟨hl, rfl⟩, fun m hm => hm.1.inj hl hm.2.symm⟩
  · have hnames := isName_below h.1
    have hpath : root.join (relative (n :: r)) = (below root r).join ⟨n⟩ :=
      (Path.below_eq_join root hnames).symm
    have hn : IsName n := hnames n List.mem_cons_self
    rw [fixtureAt, Fixture.identifier, hpath, Path.displayName, Path.fileName?_join _ hn]
    rfl
  · have hl' := hl.foundAt_eq root
    have hm' := hm.foundAt_eq root
    rw [group_index_iff honce hs ht (List.mem_map_of_mem ((hmem l).2 hl))
      (List.mem_map_of_mem ((hmem m).2 hm)) (by rwa [hl']) (by rwa [hm']), hl', hm']
    exact map_name_inj

/-- The suites below a directory are exact as long as each path in it can be asked for; if one
cannot, its directory cannot be listed and there are no suites. Each directory that is listed lies
behind the root. -/
theorem discover_exact {root : Path} (h : fs.openDir root = .ok d) :
    ((∀ l, fs.isDirAt (l ++ d) = true → ¬ IsTooLong root l) →
      ∃ suites, discover fs root = .ok suites ∧ IsExact fs root d suites) ∧
    ((∃ l, fs.isDirAt (l ++ d) = true ∧ IsTooLong root l) →
      ∃ l, fs.isDirAt (l ++ d) = true ∧ IsTooLong root l ∧
        discover fs root = .error (.discovery (below root l) (.os .nameTooLong))) ∧
    ∀ l, fs.isDirAt (l ++ d) = true →
      root.behind? (below root l) = some (l.reverse.map .name) := by
  have hd : fs.isDirAt d = true :=
    FileSystem.isDirAt_iff.2 (FileSystem.get?_of_lookup (FileSystem.openDir_eq_ok.1 h))
  -- no directory is further down than the walk goes
  have hdepth : ∀ l, fs.isDirAt (l ++ d) = true → l.length < fs.entries.length + 1 := fun l hl => by
    have hlen := FileSystem.length_le_entries (FileSystem.isSome_of_isDirAt hl)
    rw [List.length_append] at hlen
    omega
  have hdiscover : discover fs root =
      group <$> walk fs root (fs.entries.length + 1) (below root []) ([] ++ d) := by
    rw [discover, h]
    rfl
  have hplaces : ∀ l, l ∈ places fs d (fs.entries.length + 1) [] ↔ IsFixtureAt fs d l := fun l => by
    rw [mem_places]
    constructor
    · rintro ⟨q, -, -, -, hl⟩
      exact hl
    · intro hl
      obtain ⟨hdir, n, r, rfl, -⟩ := id hl
      exact ⟨n :: r, List.cons_ne_nil n r, Nat.le_of_lt (hdepth _ hdir),
        (List.append_nil _).symm, hl⟩
  -- the walk finds everything or stops at a directory whose path is too long, and never both
  have hwalk := walk_cases (k := fs.entries.length + 1) (r := []) root hd
  rw [hdiscover]
  refine ⟨fun hshort => ?_, fun ⟨l, hdir, hlong⟩ => ?_, fun l hl => ?_⟩
  · obtain ⟨hok, -⟩ | ⟨e, -, l, hdir, hlong, -⟩ := hwalk
    · rw [hok]
      exact ⟨_, rfl, exact_group hplaces (nodup_places fs d _ [])⟩
    · exact absurd hlong (hshort l hdir)
  · obtain ⟨-, hshort⟩ | ⟨e, he, l, hdir, hlong, rfl⟩ := hwalk
    · have hl := hshort l (hdepth l hdir)
      rw [List.append_nil] at hl
      exact absurd hlong (hl hdir)
    · rw [he]
      exact ⟨l, hdir, hlong, rfl⟩
  · exact Path.behind?_below root (isName_below hl)

/-! ### At the limit -/

namespace Deep

def name : Bytes := Text.Utf8.encode "001-fixture"

/-- One fixture, and nothing in it. -/
def tree : FileSystem := FileSystem.empty.insert name [] .dir (by decide) rfl (by decide)

/-- A way to the directory that it starts from, so long that no more than `5` bytes can follow. -/
def root : Path := ⟨(List.replicate 2045 [Path.dot, Path.slash]).flatten⟩

theorem openDir_root : tree.openDir root = .ok [] := by decide +kernel

end Deep

instance (root : Path) (l : Loc) : Decidable (IsTooLong root l) := Nat.decLt _ _

/-- The short way to the directory leads to exact suites, the long one to an error. -/
theorem discover_exact_up_to_limit :
    (∃ suites, discover Deep.tree ⟨[Path.dot]⟩ = .ok suites ∧
      IsExact Deep.tree ⟨[Path.dot]⟩ [] suites) ∧
    ∃ l, Deep.tree.isDirAt (l ++ []) = true ∧ IsTooLong Deep.root l ∧
      discover Deep.tree Deep.root =
        .error (.discovery (below Deep.root l) (.os .nameTooLong)) := by
  have hshort : Deep.tree.openDir ⟨[Path.dot]⟩ = .ok [] := by decide +kernel
  refine ⟨(discover_exact hshort).1 fun l hl => ?_,
    (discover_exact Deep.openDir_root).2.1 ⟨[Deep.name], by decide, by decide +kernel⟩⟩
  rw [List.append_nil] at hl
  have hall : ∀ m ∈ [] :: Deep.tree.entries.map (·.1), ¬ IsTooLong ⟨[Path.dot]⟩ m := by
    decide +kernel
  refine hall l ?_
  obtain rfl | hne := eq_or_ne l []
  · exact List.mem_cons_self
  · exact List.mem_cons_of_mem _ (FileSystem.mem_entries hne (FileSystem.isSome_of_isDirAt hl))

/-- A root may lead to a directory with a fixture below it whose path is too long to be asked for.
Nothing is discovered then. -/
theorem discover_fails_below_long_root :
    Deep.tree.openDir Deep.root = .ok [] ∧ IsFixtureAt Deep.tree [] [Deep.name] ∧
      ¬ ∃ suites, discover Deep.tree Deep.root = .ok suites ∧
        IsExact Deep.tree Deep.root [] suites := by
  have herror : (discover Deep.tree Deep.root).toOption = none := by decide +kernel
  refine ⟨Deep.openDir_root, ⟨by decide, Deep.name, [], rfl, ?_⟩, fun ⟨suites, hok, _⟩ => ?_⟩
  · refine ⟨0x30, 0x30, 0x31, Text.Utf8.encode "-fixture", by decide, ?_, ?_, ?_⟩ <;>
      exact ⟨by decide, by decide⟩
  · rw [hok] at herror
    cases herror

end Discovery

end Assay
