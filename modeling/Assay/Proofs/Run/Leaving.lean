import Assay.Proofs.Run.Isolation

/-!
# Run — what a cycle leaves

A cycle that makes its scratch directory removes it again, whatever its programs do, as long as they
are confined and no removal is refused: its directory stays where it was made until it is removed
(`Site.Housed`), and nothing else is changed. So a cycle leaves the files as they were
(`Site.like_of_cycle`).
-/

namespace Assay

open FileSystem (Clear Same Agree)

/-- What every command line of a plan keeps, its trials keep. -/
theorem Trials.keeps {host : Host} {plan : List (Invocation × Duration)} {m m' : Machine}
    {ts : List Trial} {I : Machine → Prop} (h : Trials host plan m ts m')
    (hI : ∀ c ∈ plan, ∀ m, I m → I (c.1.run host c.2 m).2) (hm : I m) : I m' := by
  induction h with
  | done => exact hm
  | stop hfares _ =>
    have hkept := hI _ List.mem_cons_self _ hm
    rwa [Invocation.run_of_fares hfares] at hkept
  | go hfares _ _ ih =>
    have hkept := hI _ List.mem_cons_self _ hm
    rw [Invocation.run_of_fares hfares] at hkept
    exact ih (fun c hc => hI c (List.mem_cons_of_mem _ hc)) hkept

/-- Whether two machines differ in nothing but what was started on them. -/
def Machine.Like (m m' : Machine) : Prop := m.refusals = m'.refusals ∧ Agree m.files m'.files

/-- A cycle whose scratch directory can be removed after its trials leaves what is left then. -/
theorem Harness.reference_of_removed {host : Host} {c : Config} {suite : String} {f : Fixture}
    {s : Scratch} (hs : s.removed = false) {m₁ m m' : Machine} {ts : List Trial}
    (hts : Trials host (plan c s f) m₁ ts m) (hr : m.removeTree s.path = (.ok (), m')) :
    (reference c suite f s ts m).2 = m' := by
  have hdrop : s.drop m = m' := by
    rw [Scratch.drop, Scratch.cleanup_eq hs, hr]
  obtain ⟨t₁, rfl⟩ | ⟨t₁, t₂, rfl⟩ | ⟨t₁, t₂, t₃, rfl⟩ | ⟨t₁, t₂, t₃, t₄, rfl⟩ := trials_cases hts
  · exact hdrop
  · exact hdrop
  · exact hdrop
  · rw [reference]
    simp only [hr]

namespace Site

variable {S : Site} {n : Nat} {m m' : Machine}

/-- Whether the directory has been made and nothing outside it has changed since the machine `m`. -/
structure Housed (S : Site) (n : Nat) (m m' : Machine) : Prop where
  calm : S.Calm n m'
  within : S.Within n m m'
  home : m'.files.get? (S.home n) = some .dir

theorem Housed.removeTree (h : S.Housed n m m') (hn : n < S.count)
    (ha : FileSystem.Askable (S.path n)) :
    m'.removeTree (S.path n) =
      (.ok (), { m' with files := m'.files.erase (S.name n) S.place }) := by
  have hremove : m'.files.removeTree (S.path n) = .ok (m'.files.erase (S.name n) S.place) :=
    FileSystem.removeTree_of_below h.calm.2.based.reaches (S.isSegment n hn) ha h.home
  rw [h.calm.removeTree_eq, Machine.attempt, hremove]

/-- Where the directory was not there before it was made, all is as before once it is removed. -/
theorem Housed.like (h : S.Housed n m m') (hn : n < S.count)
    (hnone : m.files.get? (S.home n) = none) :
    Machine.Like { m' with files := m'.files.erase (S.name n) S.place } m := by
  obtain ⟨-, ⟨hrefusals, hsame⟩, -⟩ := h
  refine ⟨hrefusals, FileSystem.agree_iff.2 ⟨hsame.cwd, fun l => ?_⟩⟩
  rw [FileSystem.get?_erase]
  split
  next hl => exact (FileSystem.get?_below hnone (List.isSuffixOf_iff_suffix.1 hl)).symm
  next hl =>
    refine hsame.get? l ?_
    rintro _ ⟨k, -, rfl, rfl⟩ hs
    exact hl (List.isSuffixOf_iff_suffix.2 hs)

/-- In a calm machine the directory is made where there was nothing, or nothing is done. -/
theorem Calm.create_cases (h : S.Calm n m) (hn : n < S.count) {label id : String}
    (hname : S.name n = Text.Utf8.encode (Scratch.dirName label id)) :
    (∃ why, Scratch.create S.base label id m = (.error why, m)) ∨
      ∃ m', Scratch.create S.base label id m = (.ok (S.scratch n), m') ∧ S.Housed n m m' ∧
        m.files.get? (S.home n) = none ∧ FileSystem.Askable (S.path n) := by
  have hlocal := isLocal_makeDir hn
  have hcalm := hlocal.calm m h
  have hwithin := hlocal.within m h
  rw [h.create_eq hname]
  simp only [Machine.attempt] at hcalm hwithin ⊢
  cases hm : m.files.makeDir (S.path n) with
  | error why => exact .inl ⟨_, rfl⟩
  | ok fs' =>
    rw [hm] at hcalm hwithin
    obtain ⟨hnone, name, hd, hn', rfl⟩ :=
      FileSystem.makeDir_below h.2.based.reaches (S.isSegment n hn) hm
    refine .inr ⟨_, rfl, ⟨hcalm, hwithin, ?_⟩, hnone, FileSystem.askable_of_makeDir hm⟩
    rw [FileSystem.get?_insert]
    exact if_pos rfl

section

variable {host : Host} {hc : host.Confined} {c : Config}

theorem owns_commands {t : Toolchain} (ht : t.IsFree (S.Marks (· ≠ n))) (hn : n < S.count)
    (limit : Duration) (ss : List Stage) {input : Path}
    (hin : Free (S.Marks (· ≠ n)) input.bytes) (hne : input.bytes ≠ Invocation.outputOption) :
    ∀ k ∈ Build.commands t limit (S.scratch n) ss input, S.Owns n k.1 := by
  induction ss generalizing input with
  | nil => exact fun _ hk => nomatch hk
  | cons s ss ih =>
    exact List.forall_mem_cons.2
      ⟨owns_stage ht hn s hin hne, ih (free_output hn s) (output_ne_option s)⟩

theorem owns_plan (ht : c.toolchain.IsFree (S.Marks (· ≠ n))) (hn : n < S.count) {f : Fixture}
    (hf : Free (S.Marks (· ≠ n)) f.directory.bytes) :
    ∀ k ∈ Harness.plan c (S.scratch n) f, S.Owns n k.1 := by
  rw [Harness.plan_eq]
  refine List.forall_mem_append.2 ⟨owns_commands ht hn _ _ (free_source hf) source_ne_option, ?_⟩
  exact List.forall_mem_cons.2 ⟨owns_program hn, fun _ hk => nomatch hk⟩

/-- A cycle leaves the files as they were. -/
theorem like_of_cycle (hi : hc.Ignores (S.Marks (· ≠ n)))
    (ht : c.toolchain.IsFree (S.Marks (· ≠ n))) {id suite : String} {f : Fixture}
    (hf : Free (S.Marks (· ≠ n)) f.directory.bytes) (hn : n < S.count)
    (hbase : S.base = c.scratchBase host.tempDir)
    (hname : S.name n = Text.Utf8.encode (Scratch.dirName (Harness.label suite f) id))
    (h : S.Calm n m) :
    (((Harness.ofConfig host c).cycle id suite f).run m).2.Like m := by
  have hcreate := h.create_cases hn hname
  rw [hbase] at hcreate
  obtain ⟨why, hfail⟩ | ⟨m₁, hmade, hhoused, hnone, hask⟩ := hcreate
  · rw [Harness.run_cycle_of_setup (h := Harness.ofConfig host c) hfail]
    exact ⟨rfl, .refl _⟩
  · -- the directory is there throughout the trials, so it can be removed behind them
    obtain ⟨ts, m₂, hts, hrun⟩ := Harness.run_cycle hmade
    have hkept : S.Housed n m m₂ := by
      refine hts.keeps (fun k hk m' hm' => ?_) hhoused
      obtain ⟨hcalm, hwithin, hhome⟩ := hm'.calm.run hi (owns_plan ht hn hf k hk) hn k.2
      exact ⟨hcalm, hm'.within.trans hwithin, hhome.trans hm'.home⟩
    rw [hrun, Harness.reference_of_removed rfl hts (hkept.removeTree hn hask)]
    exact hkept.like hn hnone

end

end Site

end Assay
