import Assay.Proofs.FileSystem.Making
import Assay.Proofs.Run.Isolation
import Assay.Proofs.Run.Seats

/-!
# Run — ids that nobody knows

All that a run can come across before it begins is known: the files, where programs are looked up
and what they are given, the settings, and the fixtures (`texts`). Ids that are different and not
part of anything known (`Unknown`) make a site of the scratch directories of a run, as soon as the
directories above them are made (`site`). The machine is quiet there before the run (`quiet_site`),
the programs of the run do not know of it (`ignores_site`), and neither does the toolchain
(`isFree_site`).
-/

namespace Assay

open FileSystem (Clear Marked)
open Scratch (IsId)
open Text.Utf8 (encode)

/-! ### What is known -/

/-- What an entry holds in writing. -/
def Entry.texts : Entry → List Bytes
  | .file f => [f.content]
  | .link t => [t.bytes]
  | _       => []

/-- All names in a file system, and all that its files and links hold. -/
def FileSystem.texts (fs : FileSystem) : List Bytes :=
  fs.cwd ++ fs.entries.flatMap fun e => e.1 ++ e.2.texts

/-- Where a host looks programs up, and what it gives them. -/
def Host.texts (h : Host) : List Bytes :=
  h.searchPath.map (·.bytes) ++ h.environment.flatMap fun v => [v.1, v.2]

def Tool.texts (t : Tool) : List Bytes := t.program.bytes :: t.args.map encode

def Toolchain.texts (t : Toolchain) : List Bytes :=
  t.compiler.texts ++ t.codegen.texts ++ t.linker.texts

/-- The texts of one tool are among those of the toolchain. -/
theorem Toolchain.texts_tool (t : Toolchain) (s : Stage) :
    (t.tool s).texts ⊆ t.texts := by
  intro x hx
  cases s with
  | translate => exact List.mem_append_left _ (List.mem_append_left _ hx)
  | codegen => exact List.mem_append_left _ (List.mem_append_right _ hx)
  | link => exact List.mem_append_right _ hx

/-- Where a fixture is, and how its scratch directory is labelled. -/
def Harness.Job.texts (j : Job) : List Bytes :=
  [j.fixture.directory.bytes, encode (Scratch.sanitize (label j.suite j.fixture))]

namespace FileSystem

variable {fs fs' : FileSystem} {l : Loc} {e : Entry}

/-- What stands below the top is in the list of entries. -/
theorem mem_of_get? (hl : l ≠ []) (h : fs.get? l = some e) : (l, e) ∈ fs.entries := by
  rw [get?, find_eq_lookup hl, List.lookup_eq_some_iff] at h
  obtain ⟨before, behind, hentries, -⟩ := h
  rw [hentries]
  exact List.mem_append_right _ List.mem_cons_self

/-- The names on the way to an entry and the texts in it are texts of the tree. -/
theorem texts_of_get? (h : fs.get? l = some e) : l ++ e.texts ⊆ fs.texts := by
  intro t ht
  cases l with
  | nil =>
    cases h
    cases ht
  | cons n d =>
    exact List.mem_append_right _ (List.mem_flatMap.2 ⟨_, mem_of_get? (List.cons_ne_nil n d) h, ht⟩)

end FileSystem

namespace Harness

/-- All that a run can come across before it begins. -/
def texts (host : Host) (c : Config) (suites : List Suite) (fs : FileSystem) : List Bytes :=
  fs.texts ++ host.texts ++ (c.scratchBase host.tempDir).bytes :: c.toolchain.texts ++
    (jobs suites).flatMap Job.texts

/-- Whether the ids of a run's jobs are all different and not part of anything known. -/
structure Unknown (ids : Nat → String) (host : Host) (c : Config) (suites : List Suite)
    (fs : FileSystem) : Prop where
  made : ∀ n < (jobs suites).length, ∃ k, ids n = Scratch.idOf k
  distinct : ∀ n < (jobs suites).length, ∀ k < (jobs suites).length, ids k = ids n → k = n
  unknown : ∀ n < (jobs suites).length, ∀ t ∈ texts host c suites fs, ¬ encode (ids n) <:+: t

/-- Whether the ids of a run's jobs are unknown, and no program makes one of them up. -/
structure Secret (ids : Nat → String) {host : Host} (hc : host.Confined) (c : Config)
    (suites : List Suite) (fs : FileSystem) : Prop where
  unknown : Unknown ids host c suites fs
  guesses : ∀ n < (jobs suites).length, hc.NeverGuesses (encode (ids n))

/-- The name of the scratch directory of a job, by its number. -/
def scratchName (ids : Nat → String) (suites : List Suite) (n : Nat) : Bytes :=
  (((jobs suites)[n]?).map fun j =>
    encode (Scratch.dirName (label j.suite j.fixture) (ids n))).getD []

variable {ids : Nat → String} {host : Host} {c : Config} {suites : List Suite} {fs fs' : FileSystem}
  {n : Nat} {j : Job} {t : Bytes}

/-- The name of a scratch directory is made of the suite and the fixture of its number and of its
id. -/
theorem scratchName_eq (hj : (jobs suites)[n]? = some j) :
    scratchName ids suites n = encode (Scratch.dirName (label j.suite j.fixture) (ids n)) := by
  rw [scratchName, hj, Option.map_some, Option.getD_some]

/-- Each number below the number of fixtures is that of a fixture. -/
theorem exists_job (hn : n < (jobs suites).length) : ∃ j, (jobs suites)[n]? = some j :=
  ⟨_, List.getElem?_eq_getElem hn⟩

/-! ### Parts of what is known -/

theorem mem_texts_of_files (ht : t ∈ fs.texts) : t ∈ texts host c suites fs :=
  List.mem_append_left _ (List.mem_append_left _ (List.mem_append_left _ ht))

theorem mem_texts_of_host (ht : t ∈ host.texts) : t ∈ texts host c suites fs :=
  List.mem_append_left _ (List.mem_append_left _ (List.mem_append_right _ ht))

/-- The path below which scratch directories are made is known. -/
theorem base_mem_texts : (c.scratchBase host.tempDir).bytes ∈ texts host c suites fs :=
  List.mem_append_left _ (List.mem_append_right _ List.mem_cons_self)

theorem mem_texts_of_toolchain (ht : t ∈ c.toolchain.texts) : t ∈ texts host c suites fs :=
  List.mem_append_left _ (List.mem_append_right _ (List.mem_cons_of_mem _ ht))

/-- What the path of a fixture and the name of its suite consist of is known. -/
theorem mem_texts_of_job (hj : (jobs suites)[n]? = some j) (ht : t ∈ j.texts) :
    t ∈ texts host c suites fs :=
  List.mem_append_right _ (List.mem_flatMap.2 ⟨j, List.mem_of_getElem? hj, ht⟩)

/-! ### The site of a run -/

/-- An id that nobody knows has the form of an id. -/
theorem Unknown.isId (h : Unknown ids host c suites fs) (hn : n < (jobs suites).length) :
    IsId (encode (ids n)) := by
  obtain ⟨k, hk⟩ := h.made n hn
  exact hk ▸ Scratch.isId_encode_idOf k

/-- The scratch directories of a run, in the directory that the base leads to. -/
def site (h : Unknown ids host c suites fs) (place : Loc) : Site where
  base := c.scratchBase host.tempDir
  place := place
  count := (jobs suites).length
  name := scratchName ids suites
  mark n := encode (ids n)
  isId _ hn := h.isId hn
  isSegment n hn := by
    obtain ⟨j, hj⟩ := exists_job hn
    rw [scratchName_eq hj]
    exact Scratch.isSegment_dirName (h.isId hn).slash_not_mem
  marked n hn := by
    obtain ⟨j, hj⟩ := exists_job hn
    rw [scratchName_eq hj]
    exact Scratch.id_infix_dirName _ _
  apart n hn k hk hne hinfix := by
    obtain ⟨j, hj⟩ := exists_job hn
    rw [scratchName_eq hj] at hinfix
    obtain hlabel | hid := Scratch.infix_of_infix_dirName (h.isId hk) (h.isId hn) hinfix
    · have hmem : _ ∈ texts host c suites fs :=
        mem_texts_of_job hj (List.mem_cons_of_mem _ List.mem_cons_self)
      exact h.unknown k hk _ hmem hlabel
    · exact hne (h.distinct n hn k hk (Text.Utf8.encode_injective hid))
  free n hn := h.unknown n hn _ base_mem_texts

variable (h : Unknown ids host c suites fs) {place : Loc} {P : Nat → Prop}

/-- What is known before a run is free of the ids that are not. -/
theorem free_of_mem_texts (ht : t ∈ texts host c suites fs) :
    Free ((site h place).Marks P) t := by
  rintro _ ⟨n, hn, -, rfl⟩
  exact h.unknown n hn t ht

/-- A location whose names are known is not that of a scratch directory. -/
theorem clear_of_subset {l : Loc} (hl : l ⊆ texts host c suites fs) :
    Clear ((site h place).Names P) place l := by
  rintro x hx hs
  obtain ⟨m, hm, hinfix⟩ := ((site h place).marked_names P).marked x hx
  exact free_of_mem_texts h (hl (hs.subset List.mem_cons_self)) m hm hinfix

/-- Once the directories above are made nothing that can be seen leads to a scratch directory. -/
theorem quiet_site (hb : (site h place).Based fs') (hcwd : fs'.cwd = fs.cwd)
    (hadds : ∀ l e, fs'.get? l = some e → fs.get? l = some e ∨ e = .dir) :
    (site h place).Quiet n fs' where
  based := hb
  cwd := hcwd ▸ clear_of_subset h fun _ ht => mem_texts_of_files (List.mem_append_left _ ht)
  links l t _ ht := by
    obtain hold | hdir := hadds l _ ht
    · have hmem := FileSystem.texts_of_get? hold
      refine ⟨clear_of_subset h fun x hx => ?_, free_of_mem_texts h ?_⟩
      · exact mem_texts_of_files (hmem (List.mem_append_left _ hx))
      · exact mem_texts_of_files (hmem (List.mem_append_right _ List.mem_cons_self))
    · cases hdir
  contents l f _ hf := by
    obtain hold | hdir := hadds l _ hf
    · have hmem := FileSystem.texts_of_get? hold
      exact free_of_mem_texts h
        (mem_texts_of_files (hmem (List.mem_append_right _ List.mem_cons_self)))
    · cases hdir

/-- Programs that do not guess ids write none. -/
theorem ignores_site {hc : host.Confined}
    (hg : ∀ n < (jobs suites).length, hc.NeverGuesses (encode (ids n))) :
    hc.Ignores ((site h place).Marks P) where
  free := by
    refine ⟨fun d hd => free_of_mem_texts h (mem_texts_of_host ?_), fun v hv => ⟨?_, ?_⟩⟩
    · exact List.mem_append_left _ (List.mem_map.2 ⟨d, hd, rfl⟩)
    · exact free_of_mem_texts h (mem_texts_of_host
        (List.mem_append_right _ (List.mem_flatMap.2 ⟨v, hv, List.mem_cons_self⟩)))
    · exact free_of_mem_texts h (mem_texts_of_host
        (List.mem_append_right _ (List.mem_flatMap.2
          ⟨v, hv, List.mem_cons_of_mem _ List.mem_cons_self⟩)))
  guesses := by
    rintro _ ⟨n, hn, -, rfl⟩
    exact hg n hn

/-- No command line of the toolchain says an id but by the paths that are put in. -/
theorem isFree_site : c.toolchain.IsFree ((site h place).Marks P) := fun s => by
  have hmem := c.toolchain.texts_tool s
  refine ⟨free_of_mem_texts h (mem_texts_of_toolchain (hmem List.mem_cons_self)), fun a ha => ?_⟩
  exact free_of_mem_texts h (mem_texts_of_toolchain
    (hmem (List.mem_cons_of_mem _ (List.mem_map.2 ⟨a, ha, rfl⟩))))

end Harness

end Assay
