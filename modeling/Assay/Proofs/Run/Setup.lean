import Assay.Proofs.Discovery.Order
import Assay.Proofs.Run.Reference
import Assay.Proofs.Scratch.Naming

/-!
# Run — whose scratch directory can be made

The name of a scratch directory has all the names on the way to its fixture in it, and a file system
takes `255` bytes for one entry.

* `Discovery.length_label`: how long a label is. There is one character for each of the decoded
  names, one behind each, and the word `root` for a fixture right below the root.
* `Harness.setup_iff`: below a base that exists and has a short path, a scratch directory is made
  exactly if its name is short enough and free.
* `Harness.setup_fails_for_long_name`: a fixture whose directory a file system takes may have a name
  too long for that.
-/

namespace Assay

open Discovery (IsFixtureAt fixtureAt keyOf suiteName)
open FileSystem (IsName nameLimit pathLimit Askable)
open Text.Utf8 (decodeLossy encode)

/-! ### The length of a label -/

/-- With one more behind them the separators between some lists stand behind each. -/
theorem intercalate_append_singleton {α : Type} (x : α) {ls : List (List α)} (h : ls ≠ []) :
    [x].intercalate ls ++ [x] = ls.flatMap (· ++ [x]) := by
  induction ls with
  | nil => exact absurd rfl h
  | cons a ls ih =>
    by_cases hls : ls = []
    · subst hls
      simp
    · rw [List.intercalate_cons_of_ne_nil hls, List.append_assoc, List.append_assoc, ih hls,
        List.flatMap_cons, List.append_assoc]

namespace Discovery

/-- The characters of a suite's name and one more: those of all names on the way, with a separator
behind each. -/
def suiteWidth (l : Loc) : Nat :=
  if l = [] then 5
  else (l.reverse.flatMap fun n => (decodeLossy n).toList ++ ['/']).length

theorem suiteName_keyOf (l : Loc) :
    suiteName (keyOf l) =
      if l = [] then "root" else String.intercalate "/" (l.reverse.map decodeLossy) := by
  rw [suiteName, keyOf, List.filterMap_map]
  simp only [Function.comp_def, List.filterMap_eq_map', List.isEmpty_iff, List.map_eq_nil_iff,
    List.reverse_eq_nil_iff]

theorem length_suiteName (l : Loc) : (suiteName (keyOf l)).length + 1 = suiteWidth l := by
  rw [suiteName_keyOf, suiteWidth]
  split
  next => rfl
  next h =>
    have hne : (l.reverse.map decodeLossy).map String.toList ≠ [] := by simpa using h
    have hslash : "/".toList = ['/'] := rfl
    calc (String.intercalate "/" (l.reverse.map decodeLossy)).length + 1
        = (['/'].intercalate ((l.reverse.map decodeLossy).map String.toList) ++ ['/']).length := by
          rw [List.length_append, List.length_singleton, ← hslash, ← String.toList_intercalate,
            String.length_toList]
      _ = (l.reverse.flatMap fun n => (decodeLossy n).toList ++ ['/']).length := by
          rw [intercalate_append_singleton '/' hne, List.flatMap_map, List.flatMap_map]

variable {fs : FileSystem} {root : Path} {d l : Loc} {n : Bytes}

theorem length_label (h : IsFixtureAt fs d (n :: l)) :
    (Harness.label (suiteName (keyOf l)) (fixtureAt root (n :: l))).length =
      suiteWidth l + (decodeLossy n).length := by
  have hhyphen : "-".length = 1 := rfl
  rw [Harness.label, String.length_append, String.length_append, hhyphen, length_suiteName,
    identifier_fixtureAt h]

end Discovery

/-! ### Below a base that is there -/

namespace Scratch

variable {base : Path} {b : Loc} {label id : String} {m : Machine}

/-- No directory has to be made on the way to one that is there. -/
theorem create_of_openDir (hb : m.files.openDir base = .ok b) :
    create base label id m =
      match m.files.makeDir (base.child (dirName label id)) with
      | .ok fs     => (.ok ⟨base.child (dirName label id), false⟩, { m with files := fs })
      | .error why => (.error (.scratch (base.child (dirName label id)) why), m) := by
  have hready : m.files.Ready base :=
    .inr (FileSystem.isDir_iff.2 ⟨b, FileSystem.openDir_eq_ok.1 hb⟩)
  rw [create, Machine.onFiles, FileSystem.makeDirs_of_ready hready]
  simp only [Machine.attempt]
  cases m.files.makeDir (base.child (dirName label id)) <;> rfl

/-- The name of a scratch directory stands for an entry if it is short enough. -/
theorem isName_dirName {k : Nat} (h : (encode (dirName label (idOf k))).length ≤ nameLimit) :
    IsName (encode (dirName label (idOf k))) := by
  obtain ⟨hne, hdot, hdots, hslash⟩ : Path.IsSegment (encode (dirName label (idOf k))) :=
    isSegment_dirName (isId_encode_idOf k).slash_not_mem
  exact ⟨hne, hdot, hdots, hslash, zero_not_mem_dirName label k, h⟩

/-- Below a base with a short path a directory is made exactly if its name is short enough and free;
a name that is too long is the reason why it is not. -/
theorem create_iff (label : String) (k : Nat) (hb : m.files.openDir base = .ok b)
    (hshort : base.bytes.length + 256 ≤ pathLimit) :
    ((∃ s m', create base label (idOf k) m = (.ok s, m')) ↔
      label.length + 13 ≤ nameLimit ∧
        m.files.get? (encode (dirName label (idOf k)) :: b) = none) ∧
    (nameLimit < label.length + 13 → create base label (idOf k) m =
      (.error (.scratch (base.child (dirName label (idOf k))) (.os .nameTooLong)), m)) := by
  have hlookup := FileSystem.openDir_eq_ok.1 hb
  have hreaches := FileSystem.reaches_of_openDir hb
  have hdir : m.files.isDirAt b = true :=
    FileSystem.isDirAt_iff.2 (FileSystem.get?_of_lookup hlookup)
  obtain ⟨⟨hnul, -, -⟩, -⟩ := FileSystem.resolve_eq_ok.1 (FileSystem.lookup_eq_ok.1 hlookup)
  have hseg : Path.IsSegment (encode (dirName label (idOf k))) :=
    isSegment_dirName (isId_encode_idOf k).slash_not_mem
  have hzero := zero_not_mem_dirName label k
  have hlength := length_encode_dirName label k
  have hlong : nameLimit < label.length + 13 → create base label (idOf k) m =
      (.error (.scratch (base.child (dirName label (idOf k))) (.os .nameTooLong)), m) := by
    intro hlen
    have hmake := FileSystem.makeDir_of_long hreaches hdir hseg
      (FileSystem.contains_join hnul hseg hzero) (hlength ▸ hlen)
    rw [create_of_openDir hb, Path.child, Path.ofString, hmake]
  refine ⟨⟨fun ⟨s, m', hmade⟩ => ?_, fun ⟨hlen, hfree⟩ => ?_⟩, hlong⟩
  · by_cases hlen : label.length + 13 ≤ nameLimit
    · rw [create_of_openDir hb] at hmade
      cases hmake : m.files.makeDir (base.child (dirName label (idOf k))) with
      | error why =>
        rw [hmake] at hmade
        cases hmade
      | ok fs => exact ⟨hlen, (FileSystem.makeDir_below hreaches hseg hmake).1⟩
    · rw [hlong (Nat.lt_of_not_le hlen)] at hmade
      cases hmade
  · have hlen : (encode (dirName label (idOf k))).length ≤ nameLimit := hlength ▸ hlen
    have hask : Askable (base.child (dirName label (idOf k))) := by
      refine FileSystem.askable_join hnul hseg hzero ?_
      rw [nameLimit] at hlen
      omega
    obtain ⟨fs, hmake⟩ :=
      FileSystem.makeDir_of_free hreaches hdir (isName_dirName hlen) hask hfree
    refine ⟨⟨base.child (dirName label (idOf k)), false⟩, { m with files := fs }, ?_⟩
    rw [create_of_openDir hb, Path.child, Path.ofString, hmake]

end Scratch

/-! ### Which fixtures can be set up -/

namespace Harness

/-- The name of a fixture's scratch directory is one entry. It has a byte for each character of the
decoded names on the way from the root to the fixture and one for each separator, or five for the
suite of the root, and thirteen more. Below a base that exists and has a short path the directory is
made exactly if these are no more than `255` and nothing there has the name. With more the setup of
the fixture fails, whatever its id is, and nothing else happens. -/
theorem setup_iff {m : Machine} {root base : Path} {suites : List Suite} {s : Suite} {f : Fixture}
    {b : Loc} (k : Nat) (hsuites : discover m.files root = .ok suites) (hs : s ∈ suites)
    (hf : f ∈ s.fixtures) (hbase : m.files.openDir base = .ok b)
    (hshort : base.bytes.length + 256 ≤ pathLimit) :
    ∃ d n l, m.files.openDir root = .ok d ∧ IsFixtureAt m.files d (n :: l) ∧
      f = fixtureAt root (n :: l) ∧
      Path.IsSegment (encode (Scratch.dirName (label s.name f) (Scratch.idOf k))) ∧
      (encode (Scratch.dirName (label s.name f) (Scratch.idOf k))).length =
        Discovery.suiteWidth l + (decodeLossy n).length + 13 ∧
      ((∃ x m', Scratch.create base (label s.name f) (Scratch.idOf k) m = (.ok x, m')) ↔
        Discovery.suiteWidth l + (decodeLossy n).length + 13 ≤ nameLimit ∧
          m.files.get? (encode (Scratch.dirName (label s.name f) (Scratch.idOf k)) :: b) =
            none) ∧
      (nameLimit < Discovery.suiteWidth l + (decodeLossy n).length + 13 →
        ∀ h : Harness, h.config.scratchBase h.host.tempDir = base →
          (h.cycle (Scratch.idOf k) s.name f).run m =
            (some ⟨s.name, f.identifier, .failed [.setup (Error.scratch
              (base.child (Scratch.dirName (label s.name f) (Scratch.idOf k)))
              (.os .nameTooLong)).message], .zero, ""⟩, m)) := by
  obtain ⟨d, n, l, hd, hplace, hfixture, hname⟩ := Discovery.place_of_discover hsuites hs hf
  have hlength : (label s.name f).length = Discovery.suiteWidth l + (decodeLossy n).length := by
    rw [hname, hfixture]
    exact Discovery.length_label hplace
  obtain ⟨hiff, hlong⟩ := Scratch.create_iff (label s.name f) k hbase hshort
  have hbytes := Scratch.length_encode_dirName (label s.name f) k
  rw [hlength] at hiff hlong hbytes
  refine ⟨d, n, l, hd, hplace, hfixture,
    Scratch.isSegment_dirName (Scratch.isId_encode_idOf k).slash_not_mem, hbytes, hiff,
    fun hlen h hb => ?_⟩
  subst hb
  exact run_cycle_of_setup (hlong hlen)

namespace LongName

/-- Three digits, a hyphen and some letters. -/
def name (letters : Nat) : Bytes := [0x30, 0x30, 0x31, 0x2D] ++ List.replicate letters 0x61

def root : Path := .ofString "/v"

def base : Path := .ofString "/tmp"

/-- A directory for scratch directories, and a root in which there is one with a name. -/
def machine (letters : Nat) : Machine where
  files := ((FileSystem.empty.makeDirs (root.join ⟨name letters⟩)).2.makeDirs base).2

def fixture (letters : Nat) : Fixture := fixtureAt root [name letters]

/-- What there is with two numbers of letters. -/
theorem facts {letters : Nat} (h : letters = 233 ∨ letters = 234) :
    (machine letters).files.openDir root = .ok [encode "v"] ∧
      (machine letters).files.openDir base = .ok [encode "tmp"] ∧
      (machine letters).files.isDirAt [name letters, encode "v"] = true ∧
      base.bytes.length + 256 ≤ pathLimit ∧
      (∀ l ∈ (machine letters).files.entries.map (·.1), l.tail ≠ [encode "tmp"]) ∧
      ∀ l ∈ [] :: (machine letters).files.entries.map (·.1),
        ¬ Discovery.IsTooLong root l.dropLast := by
  obtain rfl | rfl := h
  · decide +kernel
  · decide +kernel

theorem isFixtureAt_name {letters : Nat} (h : letters = 233 ∨ letters = 234) :
    IsFixtureAt (machine letters).files [encode "v"] [name letters] :=
  ⟨(facts h).2.2.1, _, [], rfl, 0x30, 0x30, 0x31, _, rfl, ⟨by decide, by decide⟩,
    ⟨by decide, by decide⟩, ⟨by decide, by decide⟩⟩

/-- The directory is discovered as a fixture of the root. -/
theorem exists_suite {letters : Nat} (h : letters = 233 ∨ letters = 234) :
    ∃ suites s, discover (machine letters).files root = .ok suites ∧ s ∈ suites ∧
      s.name = "root" ∧ fixture letters ∈ s.fixtures := by
  obtain ⟨hd, -, -, -, -, hshort⟩ := facts h
  have hplace := isFixtureAt_name h
  obtain ⟨suites, hok⟩ : ∃ suites, discover (machine letters).files root = .ok suites := by
    refine ⟨_, (Discovery.discover_eq_ok hd).2 ⟨fun l hl => ?_, rfl⟩⟩
    have hne : l ++ [encode "v"] ≠ [] := List.append_ne_nil_of_right_ne_nil l nofun
    have hmem := FileSystem.mem_entries hne (FileSystem.isSome_of_isDirAt hl)
    have hlast := hshort _ (List.mem_cons_of_mem _ hmem)
    rwa [List.dropLast_concat] at hlast
  have hexact := Discovery.exact_of_discover hd hok
  obtain ⟨s, hs, hf⟩ := List.mem_flatMap.1 (hexact.complete _ hplace)
  refine ⟨suites, s, hok, hs, ?_, hf⟩
  obtain ⟨d, n, l, hd', hplace', hfixture, hname⟩ := Discovery.place_of_discover hok hs hf
  obtain rfl := Except.ok.inj (hd.symm.trans hd')
  obtain ⟨rfl, rfl⟩ := List.cons.inj (hplace.inj hplace' hfixture)
  rw [hname]
  decide

/-- No scratch directory is there yet. -/
theorem get?_base {letters : Nat} (h : letters = 233 ∨ letters = 234) (n : Bytes) :
    (machine letters).files.get? [n, encode "tmp"] = none := by
  obtain ⟨-, -, -, -, hfree, -⟩ := facts h
  rw [← Option.not_isSome_iff_eq_none]
  intro hsome
  exact hfree _ (FileSystem.mem_entries (List.cons_ne_nil _ _) hsome) rfl

/-- The label of the fixture is as long as its name with `root-` in front. -/
theorem length_label {letters : Nat} (h : letters = 233 ∨ letters = 234) :
    (label "root" (fixture letters)).length = letters + 9 := by
  have hascii : ∀ b ∈ name letters, b < 0x80 := by
    intro b hb
    have hdigits : ([0x30, 0x30, 0x31, 0x2D] : Bytes).all (· < 0x80) = true := by decide
    obtain hb | hb := List.mem_append.1 hb
    · exact of_decide_eq_true (List.all_eq_true.1 hdigits b hb)
    · rw [List.eq_of_mem_replicate hb]
      decide
  have hlength : (label (suiteName (keyOf [])) (fixture letters)).length =
      Discovery.suiteWidth [] + (decodeLossy (name letters)).length :=
    Discovery.length_label (isFixtureAt_name h)
  have hroot : suiteName (keyOf []) = "root" := by decide
  have hwidth : Discovery.suiteWidth [] = 5 := rfl
  have hname : (name letters).length = 4 + letters := by
    rw [name, List.length_append, List.length_replicate]
    rfl
  rw [hroot, Text.Utf8.length_decodeLossy_of_lt hascii, hwidth, hname] at hlength
  rw [hlength]
  omega

end LongName

/-- With `237` bytes for the name of a fixture its scratch directory has one of `255`. -/
theorem setup_iff_at_limit :
    ∃ suites s, discover (LongName.machine 233).files LongName.root = .ok suites ∧ s ∈ suites ∧
      s.name = "root" ∧ LongName.fixture 233 ∈ s.fixtures ∧
      (LongName.machine 233).files.openDir LongName.base = .ok [encode "tmp"] ∧
      LongName.base.bytes.length + 256 ≤ pathLimit ∧
      ∀ k, (encode (Scratch.dirName (label "root" (LongName.fixture 233))
          (Scratch.idOf k))).length = 255 ∧
        ∃ x m', Scratch.create LongName.base (label "root" (LongName.fixture 233))
          (Scratch.idOf k) (LongName.machine 233) = (.ok x, m') := by
  obtain ⟨suites, s, hsuites, hs, hname, hf⟩ := LongName.exists_suite (.inl rfl)
  obtain ⟨-, hbase, -, hshort, -⟩ := LongName.facts (.inl rfl)
  refine ⟨suites, s, hsuites, hs, hname, hf, hbase, hshort, fun k => ?_⟩
  obtain ⟨d, n, l, -, -, -, -, hbytes, hiff, -⟩ := setup_iff k hsuites hs hf hbase hshort
  have hlength := Scratch.length_encode_dirName (label "root" (LongName.fixture 233)) k
  rw [LongName.length_label (.inl rfl)] at hlength
  rw [hname] at hbytes hiff
  refine ⟨hlength, hiff.2 ⟨?_, LongName.get?_base (.inl rfl) _⟩⟩
  rw [← hbytes, hlength]
  exact Nat.le_refl 255

/-- A file system takes a directory whose name has `238` bytes. It is a fixture, and its scratch
directory cannot be made, whatever its id is: with `root`, two hyphens and an id these are `256`. -/
theorem setup_fails_for_long_name :
    ∃ suites s, discover (LongName.machine 234).files LongName.root = .ok suites ∧ s ∈ suites ∧
      s.name = "root" ∧ LongName.fixture 234 ∈ s.fixtures ∧
      (LongName.machine 234).files.openDir LongName.base = .ok [encode "tmp"] ∧
      LongName.base.bytes.length + 256 ≤ pathLimit ∧
      ∀ k, (encode (Scratch.dirName (label "root" (LongName.fixture 234))
          (Scratch.idOf k))).length = 256 ∧
        (Scratch.create LongName.base (label "root" (LongName.fixture 234)) (Scratch.idOf k)
          (LongName.machine 234)).1 = .error (.scratch (LongName.base.child
            (Scratch.dirName (label "root" (LongName.fixture 234)) (Scratch.idOf k)))
            (.os .nameTooLong)) := by
  obtain ⟨suites, s, hsuites, hs, hname, hf⟩ := LongName.exists_suite (.inr rfl)
  obtain ⟨-, hbase, -, hshort, -⟩ := LongName.facts (.inr rfl)
  refine ⟨suites, s, hsuites, hs, hname, hf, hbase, hshort, fun k => ?_⟩
  obtain ⟨-, hlong⟩ :=
    Scratch.create_iff (label "root" (LongName.fixture 234)) k hbase hshort
  rw [LongName.length_label (.inr rfl)] at hlong
  rw [Scratch.length_encode_dirName, LongName.length_label (.inr rfl)]
  exact ⟨rfl, congrArg Prod.fst (hlong (Nat.lt_succ_self 255))⟩

end Harness

end Assay
