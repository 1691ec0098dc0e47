import Assay.Proofs.Run.Reference
import Assay.Proofs.Scratch.Programs

/-!
# Run — cycles that do not see each other

Part by part a cycle does nothing but what is local to its scratch directory, as long as nothing it
depends on mentions another: its programs are told to write there, what it looks at is elsewhere,
and what it removes is the directory. So the whole cycle is isolated from those of other fixtures
(`isolated_cycle`).
-/

namespace Assay

open FileSystem (Same Plain)
open Assay.Path (IsSegment)
open Scratch (IsId)

namespace Site

variable {S : Site} {n : Nat}

/-! ### The parts of a cycle -/

/-- To look at a file whose path says no foreign mark is isolated. -/
theorem isolated_look {α : Type} {f : FileSystem → α} {p : Path}
    (hp : Free (S.Marks (· ≠ n)) p.bytes)
    (hf : ∀ fs fs' : FileSystem, fs.read p = fs'.read p → f fs = f fs') :
    (Task.look fun m : Machine => f m.files).Isolated (S.Alike n) (S.Within n) := by
  have hmarked := marked_names (S := S) (· ≠ n)
  refine Task.isolated_act (f := fun m : Machine => (f m.files, m)) fun m m' ha => ?_
  refine ⟨hf _ _ ?_, ha, .refl m⟩
  exact FileSystem.read_same ha.2.2 (ha.2.1.2.tidy.plain hmarked) (hmarked.avoids hp)

/-- A text that is no place for an id is free of marks. -/
theorem free_text (P : Nat → Prop) {b : Bytes}
    (hb : ∀ i ≤ b.length, 12 ≤ (b.drop i).length → ∃ u ∈ (b.drop i).take 12, ¬ Scratch.IsHex u) :
    Free (S.Marks P) b := by
  rintro _ ⟨k, hk, -, rfl⟩
  exact (S.isId k hk).absent hb

end Site

/-- Whether the tools of a toolchain and their arguments are free of some marks. -/
def Toolchain.IsFree (marks : Bytes → Prop) (t : Toolchain) : Prop :=
  ∀ s, Free marks (t.tool s).program.bytes ∧
    ∀ a ∈ (t.tool s).args, Free marks (Text.Utf8.encode a)

namespace Site

/-- The scratch directory, not removed yet. -/
def scratch (S : Site) (n : Nat) : Scratch := ⟨S.path n, false⟩

variable {S : Site} {n : Nat}

/-- The output of a stage has a name that can stand in a path. -/
theorem isSegment_outputName (s : Stage) : IsSegment (Text.Utf8.encode s.outputName) := by
  cases s <;> decide

/-- The name of an output is too short to say a mark. -/
theorem free_outputName (s : Stage) : Free (S.Marks (· ≠ n)) (Text.Utf8.encode s.outputName) :=
  free_text _ (by cases s <;> decide)

/-- The path of an output says no mark but its own directory's. -/
theorem free_output (hn : n < S.count) (s : Stage) :
    Free (S.Marks (· ≠ n)) ((S.scratch n).file s.outputName).bytes :=
  (free_path hn).join (marked_names _).slash (free_outputName s)

/-- A stage is told to write into its own scratch directory and to read nothing from another. -/
theorem owns_stage {t : Toolchain} (ht : t.IsFree (S.Marks (· ≠ n))) (hn : n < S.count) (s : Stage)
    {input : Path} (hin : Free (S.Marks (· ≠ n)) input.bytes)
    (hne : input.bytes ≠ Invocation.outputOption) :
    S.Owns n (t.invocation s input ((S.scratch n).file s.outputName)) where
  program := (ht s).1
  args a ha := by
    obtain ha | ha := List.mem_append.1 ha
    · obtain ⟨b, hb, rfl⟩ := List.mem_map.1 ha
      exact (ht s).2 b hb
    · have hout := free_output (n := n) hn s
      have hflag : Free (S.Marks (· ≠ n)) (Text.Utf8.encode "-o") := free_text _ (by decide)
      have hobj : Free (S.Marks (· ≠ n)) (Text.Utf8.encode "-filetype=obj") :=
        free_text _ (by decide)
      have hpic : Free (S.Marks (· ≠ n)) (Text.Utf8.encode "-relocation-model=pic") :=
        free_text _ (by decide)
      cases s with
      | translate | link =>
        simp only [Stage.args, List.mem_cons, List.not_mem_nil, or_false] at ha
        obtain rfl | rfl | rfl := ha <;> assumption
      | codegen =>
        simp only [Stage.args, List.mem_append, List.mem_cons, List.not_mem_nil, or_false] at ha
        obtain ha | rfl | rfl | rfl | rfl := ha
        · split at ha
          · rw [List.mem_singleton.1 ha]
            exact hpic
          · cases ha
        all_goals assumption
  output p hp := by
    rw [t.output_invocation s _ hne] at hp
    obtain rfl := Option.some.inj hp
    exact ⟨_, isSegment_outputName s, free_outputName s, rfl⟩

/-- What ends in a long name is not an option. -/
theorem child_ne_outputOption (p : Path) {name : String}
    (h : IsSegment (Text.Utf8.encode name) ∧ 2 < (Text.Utf8.encode name).length) :
    (p.child name).bytes ≠ Invocation.outputOption := by
  intro he
  have hlen := p.length_le_join h.1
  have htwo : (p.join ⟨Text.Utf8.encode name⟩).bytes.length = 2 := congrArg List.length he
  have hlong := h.2
  omega

/-- No output looks like the option that names outputs. -/
theorem output_ne_option (s : Stage) :
    ((S.scratch n).file s.outputName).bytes ≠ Invocation.outputOption :=
  child_ne_outputOption _ (by cases s <;> decide)

/-- The source of a fixture says no mark if its directory says none. -/
theorem free_source {f : Fixture} (hf : Free (S.Marks (· ≠ n)) f.directory.bytes) :
    Free (S.Marks (· ≠ n)) f.source.bytes :=
  hf.join (marked_names _).slash (free_text _ (by decide))

/-- No source looks like the option that names outputs. -/
theorem source_ne_option {f : Fixture} : f.source.bytes ≠ Invocation.outputOption :=
  child_ne_outputOption _ (by decide)

/-- What a scratch directory is that was cleaned up or not. -/
theorem path_cleanup (s : Scratch) (m : Machine) : (s.cleanup m).2.1.path = s.path := by
  rw [Scratch.cleanup]
  split
  · rfl
  · split <;> rfl

section

variable {host : Host} {hc : host.Confined} {t : Toolchain}
  (hi : hc.Ignores (S.Marks (· ≠ n))) (ht : t.IsFree (S.Marks (· ≠ n))) (hn : n < S.count)
  (limit : Duration)

include hi ht hn in
/-- Stages that begin with an input outside the other directories are isolated. -/
theorem isolated_stages (ss : List Stage) {input : Path}
    (hin : Free (S.Marks (· ≠ n)) input.bytes) (hne : input.bytes ≠ Invocation.outputOption) :
    (Build.stages host t limit (S.scratch n) ss input).Isolated (S.Alike n) (S.Within n) := by
  induction ss generalizing input with
  | nil => trivial
  | cons s ss ih =>
    have hrun := isLocal_run hi (owns_stage ht hn s hin hne) hn limit
    refine Task.isolated_bind_of_forall (Task.isolated_map hrun.isolated) fun o => ?_
    cases o with
    | some r => trivial
    | none => exact ih (free_output hn s) (output_ne_option s)

include hn in
/-- To drop the scratch directory is isolated. -/
theorem isolated_drop : (Task.change (S.scratch n).drop).Isolated (S.Alike n) (S.Within n) :=
  (isLocal_drop hn false).isolated

include hi ht hn in
/-- A build is isolated, also where it fails and drops the directory. -/
theorem isolated_build {f : Fixture} (hf : Free (S.Marks (· ≠ n)) f.directory.bytes) :
    ((t.pipeline host limit).build f (S.scratch n)).Isolated (S.Alike n) (S.Within n) := by
  refine Task.isolated_bind_of_forall
    (isolated_stages hi ht hn limit _ (free_source hf) source_ne_option) fun o => ?_
  cases o with
  | none => trivial
  | some r => exact Task.isolated_bind_of_forall (isolated_drop hn) fun _ => trivial

/-- A build gives nothing but the program in its scratch directory. -/
theorem always_build (host : Host) (t : Toolchain) (limit : Duration) (f : Fixture)
    (s : Scratch) : ((t.pipeline host limit).build f s).Always fun built =>
      ∀ a, built = .ok a → a = ⟨s, s.file Stage.link.outputName⟩ := by
  refine Task.always_bind_of_forall fun o => ?_
  cases o with
  | none => exact fun a ha => (Except.ok.inj ha).symm
  | some r => exact Task.always_bind_of_forall fun _ => fun a ha => nomatch ha

include hn in
/-- To release an artifact is isolated, also where the removal is tried twice. -/
theorem isolated_release (binary : Path) :
    (Artifact.release ⟨S.scratch n, binary⟩).Isolated (S.Alike n) (S.Within n) := by
  refine Task.isolated_bind (P := fun r => r.2.path = S.path n) (isLocal_cleanup hn false).isolated
    (Task.always_act.2 fun m => path_cleanup (S.scratch n) m) ?_
  rintro ⟨outcome, ⟨path, removed⟩⟩ (rfl : path = S.path n)
  -- what was not removed is dropped again
  cases removed with
  | true => trivial
  | false => exact Task.isolated_bind_of_forall (isolated_drop hn) fun _ => trivial

/-- The program is run from its own scratch directory and without arguments. -/
theorem owns_program (hn : n < S.count) :
    S.Owns n ⟨(S.scratch n).file Stage.link.outputName, []⟩ where
  program := free_output hn .link
  args _ ha := nomatch ha
  output _ hp := nomatch hp

include hi hn in
/-- To run the program and judge it is isolated. -/
theorem isolated_execute {f : Fixture} (hf : Free (S.Marks (· ≠ n)) f.directory.bytes) :
    (Harness.execute host limit ⟨S.scratch n, (S.scratch n).file Stage.link.outputName⟩
      f).Isolated (S.Alike n) (S.Within n) := by
  have hslash := (marked_names (S := S) (· ≠ n)).slash
  have hexit : Free (S.Marks (· ≠ n)) f.exitFile.bytes :=
    hf.join hslash (free_text _ (by decide))
  have hstdout : Free (S.Marks (· ≠ n)) f.stdoutFile.bytes :=
    hf.join hslash (free_text _ (by decide))
  refine Task.isolated_bind_of_forall (isLocal_run hi (owns_program hn) hn limit).isolated
    fun fared => ?_
  cases fared with
  | error why => trivial
  | ok finish =>
    cases finish with
    | timedOut after => trivial
    | completed o =>
      refine Task.isolated_bind_of_forall (isolated_look hexit fun fs fs' h => ?_) fun exit => ?_
      · rw [Fixture.expectedExit, Fixture.expectedExit, Fixture.readOptional, Fixture.readOptional,
          h]
      refine Task.isolated_bind_of_forall (isolated_look hstdout fun fs fs' h => ?_)
        fun stdout => trivial
      rw [Fixture.expectedStdout, Fixture.expectedStdout, Fixture.readOptional,
        Fixture.readOptional, h]

end

/-- A cycle that makes the `n`-th directory does nothing that another of them can see, and sees
nothing of them. -/
theorem isolated_cycle {host : Host} {hc : host.Confined} {c : Config} {id suite : String}
    {f : Fixture} (hi : hc.Ignores (S.Marks (· ≠ n))) (ht : c.toolchain.IsFree (S.Marks (· ≠ n)))
    (hf : Free (S.Marks (· ≠ n)) f.directory.bytes) (hn : n < S.count)
    (hbase : S.base = c.scratchBase host.tempDir)
    (hname : S.name n = Text.Utf8.encode (Scratch.dirName (Harness.label suite f) id)) :
    ((Harness.ofConfig host c).cycle id suite f).Isolated (S.Alike n) (S.Within n) := by
  have hpath : (c.scratchBase host.tempDir).child (Scratch.dirName (Harness.label suite f) id) =
      S.path n := by rw [path, hname, hbase]; rfl
  refine Task.isolated_bind (P := fun made => ∀ s, made = .ok s → s = S.scratch n)
    (hbase ▸ (isLocal_create hn hname).isolated) (Task.always_act.2 fun m s hs => ?_)
    fun made hmade => ?_
  · rw [Scratch.eq_of_create (Prod.ext hs rfl :
      Scratch.create (c.scratchBase host.tempDir) (Harness.label suite f) id m = (.ok s, _)), hpath]
    rfl
  cases made with
  | error why => trivial
  | ok s =>
    obtain rfl := hmade s rfl
    refine Task.isolated_bind (isolated_build hi ht hn c.limits.stage hf)
      (always_build host c.toolchain c.limits.stage f (S.scratch n)) fun built hbuilt => ?_
    cases built with
    | error reason => trivial
    | ok artifact =>
      obtain rfl := hbuilt artifact rfl
      refine Task.isolated_map (Task.isolated_bind_of_forall
        (isolated_execute hi hn c.limits.run hf) fun e => ?_)
      refine Task.isolated_bind_of_forall (isolated_release hn _) fun outcome => ?_
      cases outcome <;> trivial

end Site

end Assay
