import Assay.Proofs.Machine.Copying
import Assay.Proofs.Run.Commands
import Assay.Proofs.Run.Setup

/-!
# Run — where a build writes

Whatever the base, the suite and the fixture are called, the scratch directory of a cycle is an
entry of the base, and of what the names are made of nothing gets into its name but small letters
and digits. The stages are told to write right into it, and what is run at the end is there.

* `Scratch.entry_of_create`: what is made is an entry of the directory that the base leads to.
* `Harness.staysIn_of_mem_plan`: no command line of a plan names an output elsewhere.
* `Harness.confined_to_scratch`: both together, for every step of a cycle.
-/

namespace Assay

open Text.Utf8 (encode)

/-! ### The directory -/

namespace Scratch

variable {base : Path} {label id : String} {m m' : Machine} {s : Scratch}

/-- A scratch directory that was made is a new entry of the directory that the base leads to. -/
theorem entry_of_create (hid : Path.slash ∉ encode id)
    (h : create base label id m = (.ok s, m')) :
    s = ⟨base.child (dirName label id), false⟩ ∧ ∃ b, m'.files.Leads base b ∧
      m.files.get? (encode (dirName label id) :: b) = none ∧
      m'.files.get? (encode (dirName label id) :: b) = some .dir := by
  obtain ⟨hs, -, fs, b, hw, hleads, hnone, hname, hd, hn, hfs⟩ := create_eq_ok hid h
  have hw' : fs.Within m'.files := hfs ▸ FileSystem.within_insert hnone
  refine ⟨hs, b, hleads.mono hw', hw.get?_eq_none hnone, ?_⟩
  rw [hfs, FileSystem.get?_insert, if_pos rfl]

/-- The name in its parts: a character for each of the label, a hyphen, and the digits of the id. -/
theorem parts_dirName (label : String) (k : Nat) :
    ∃ cs ds, (dirName label (idOf k)).toList = cs ++ '-' :: ds ∧
      cs.length = label.length ∧ (∀ c ∈ cs, IsNameChar c) ∧
      ds.length = 12 ∧ ∀ c ∈ ds, IsHexChar c := by
  obtain ⟨hlen, hdigits⟩ := toList_idOf k
  exact ⟨_, _, toList_dirName label (idOf k), length_sanitize label,
    fun _ => isNameChar_sanitize, hlen,
    fun c hc => isHexChar_of_isHex (hdigits c hc).1 (hdigits c hc).2⟩

/-- Whether a path is that of a file of a build, right in a scratch directory. -/
def IsOutput (s : Scratch) (p : Path) : Prop :=
  ∃ name ∈ ["program.ll", "program.o", "program"],
    p = s.path.child name ∧ p.components = s.path.components ++ [.name (encode name)]

theorem isOutput_file (s : Scratch) (stage : Stage) : s.IsOutput (s.file stage.outputName) :=
  ⟨stage.outputName, by cases stage <;> decide, rfl,
    Path.components_child _ (Site.isSegment_outputName stage)⟩

end Scratch

/-! ### The command lines -/

namespace Harness

/-- Whether a command line is that of a stage that is told to write a file of the build into a
scratch directory, as its last argument and where tools look for it, or runs the program there. -/
def StaysIn (t : Toolchain) (s : Scratch) (i : Invocation) : Prop :=
  (∃ stage input output rest, i = t.invocation stage input output ∧ s.IsOutput output ∧
    i.args = rest ++ [encode "-o", output.bytes] ∧
    (Invocation.operands i.args).output = some output) ∨
  (i = ⟨s.path.child "program", []⟩ ∧ s.IsOutput i.program)

variable {c : Config} {f : Fixture} {s : Scratch} {i : Invocation} {limit : Duration}

theorem staysIn_of_mem_plan (h : (i, limit) ∈ plan c s f) : StaysIn c.toolchain s i := by
  obtain ⟨stage, input, he, hin⟩ | he := mem_plan h
  · obtain ⟨rfl, -⟩ := Prod.mk.inj he
    -- neither a source nor an output looks like the option that the output stands behind
    have hne : input.bytes ≠ Invocation.outputOption := by
      obtain rfl | ⟨before, rfl⟩ := hin
      · exact Site.source_ne_option
      · exact Site.child_ne_outputOption _ (by cases before <;> decide)
    obtain ⟨rest, hrest⟩ := c.toolchain.output_last stage input (s.file stage.outputName)
    exact .inl ⟨stage, input, s.file stage.outputName, rest, rfl, s.isOutput_file stage, hrest,
      c.toolchain.output_invocation stage _ hne⟩
  · obtain ⟨rfl, -⟩ := Prod.mk.inj he
    exact .inr ⟨rfl, s.isOutput_file .link⟩

/-! ### A cycle -/

/-- For every base, suite and fixture, and whatever others do between the steps of a cycle: the name
of its scratch directory has a small letter, a digit or a hyphen for each character of the label,
then a hyphen, then the twelve digits of the id, and so it is one component behind the base. If the
directory is made it is that entry of the directory that the base leads to, and it was not there
before. What the cycle runs is its plan and nothing else, and each command line of the plan is that
of a stage that is told to write `program.ll`, `program.o` or `program` right there, or of the
program that is there. -/
theorem confined_to_scratch (host : Host) (c : Config) (suite : String) (f : Fixture) (k : Nat) :
    (∃ cs ds, (Scratch.dirName (label suite f) (Scratch.idOf k)).toList = cs ++ '-' :: ds ∧
      cs.length = (label suite f).length ∧ (∀ a ∈ cs, Scratch.IsNameChar a) ∧
      ds.length = 12 ∧ ∀ a ∈ ds, Scratch.IsHexChar a) ∧
    (scratchOf host c suite f (Scratch.idOf k)).path.components =
      (c.scratchBase host.tempDir).components ++
        [.name (encode (Scratch.dirName (label suite f) (Scratch.idOf k)))] ∧
    (∀ m s m', Scratch.create (c.scratchBase host.tempDir) (label suite f) (Scratch.idOf k) m =
        (.ok s, m') →
      s = scratchOf host c suite f (Scratch.idOf k) ∧
        ∃ b, m'.files.Leads (c.scratchBase host.tempDir) b ∧
          m.files.get? (encode (Scratch.dirName (label suite f) (Scratch.idOf k)) :: b) = none ∧
          m'.files.get? (encode (Scratch.dirName (label suite f) (Scratch.idOf k)) :: b) =
            some .dir) ∧
    FollowsPlan host c suite f (Scratch.idOf k) ∧
    ∀ i limit, (i, limit) ∈ plan c (scratchOf host c suite f (Scratch.idOf k)) f →
      StaysIn c.toolchain (scratchOf host c suite f (Scratch.idOf k)) i := by
  have hid : Path.slash ∉ encode (Scratch.idOf k) := (Scratch.isId_encode_idOf k).slash_not_mem
  have hname : Path.IsSegment (encode (Scratch.dirName (label suite f) (Scratch.idOf k))) :=
    Scratch.isSegment_dirName hid
  refine ⟨Scratch.parts_dirName _ k, ?_, fun m s m' => Scratch.entry_of_create hid,
    followsPlan host c suite f (Scratch.idOf k), fun i limit => staysIn_of_mem_plan⟩
  rw [path_scratchOf, Path.components_child _ hname]

namespace Escaping

/-- A directory for scratch directories. -/
def machine : Machine where
  files := (FileSystem.empty.makeDirs LongName.base).2

def config : Config := { Config.default none LongName.root with scratchDir := some LongName.base }

/-- A name that leads up, with a zero in it and a letter that names do not have. -/
def suite : String := "../Ü\x00/A"

/-- A fixture in a directory whose name ends in a line break. -/
def fixture : Fixture := ⟨.ofString "/v/001-x\n"⟩

/-- What stands for these names in that of a scratch directory. -/
def dirName : String := "------a-001-x--000000000000"

end Escaping

/-- Of a name that leads up, with a zero and a line break behind it, nothing is left but hyphens. -/
theorem confined_to_scratch_of_hostile_names :
    ∃ s m', Scratch.create LongName.base (label Escaping.suite Escaping.fixture) (Scratch.idOf 0)
        Escaping.machine = (.ok s, m') ∧
      s.path.components = [.top, .name (encode "tmp"), .name (encode Escaping.dirName)] ∧
      ∃ b, m'.files.Leads LongName.base b ∧
        m'.files.get? (encode Escaping.dirName :: b) = some .dir := by
  have hname : Scratch.dirName (label Escaping.suite Escaping.fixture) (Scratch.idOf 0) =
      Escaping.dirName := by decide +kernel
  have hbase : Escaping.machine.files.openDir LongName.base = .ok [encode "tmp"] := by
    decide +kernel
  have hfree : (label Escaping.suite Escaping.fixture).length + 13 ≤ FileSystem.nameLimit ∧
      Escaping.machine.files.get? [encode Escaping.dirName, encode "tmp"] = none := by
    decide +kernel
  obtain ⟨hiff, -⟩ := Scratch.create_iff (label Escaping.suite Escaping.fixture) 0 hbase (by decide)
  rw [hname] at hiff
  obtain ⟨s, m', hmade⟩ := hiff.2 hfree
  obtain ⟨-, hpath, hmake, -⟩ :=
    confined_to_scratch Copying.host Escaping.config Escaping.suite Escaping.fixture 0
  obtain ⟨rfl, b, hleads, -, hdir⟩ := hmake Escaping.machine s m' hmade
  rw [hname] at hpath hdir
  exact ⟨_, m', hmade, hpath.trans (by decide), b, hleads, hdir⟩

end Harness

end Assay
