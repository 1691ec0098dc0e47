import Assay.Proofs.Pool.Keeping
import Assay.Proofs.Run.Interleaving
import Assay.Proofs.Scratch.Lodging

/-!
# Run — what remains of it

As long as programs write nothing but the file that they are told to write, and no removal is
refused, every cycle removes the directory that it makes, whatever happens in between
(`enters_cycle`), and so does a cycle that is cut off in the middle, for it drops what it holds
(`unwinding`). So at any time all is as it was at the start, but for directories at the base and
above it and the scratch directories of cycles that are under way, and after a run there are none
of those (`leaves_intact`). Nothing is assumed of the contents of files, of symbolic links or of
what programs come to know.
-/

namespace Assay

open Assay.Path (IsSegment)
open FileSystem (Intact)
open Pool (History)

/-- Whether a program changes no file but the one that its command line tells it to write. -/
def Host.WritesOutputs (host : Host) : Prop :=
  ∀ fs i image limit, host.locate fs i = .ok image →
    (host.act fs image limit).files = fs ∨
      ∃ p f, (Invocation.operands i.args).output = some p ∧
        fs.write p f = .ok (host.act fs image limit).files

theorem Host.Confined.writesOutputs {host : Host} (hc : host.Confined) : host.WritesOutputs := by
  intro fs i image limit hl
  rw [hc.law fs i image limit hl]
  simp only [Deed.act, Deed.leave]
  split
  next p f hp _ =>
    cases hw : fs.write p f with
    | error why => exact .inl rfl
    | ok fs' => exact .inr ⟨p, f, hp, hw⟩
  next => exact .inl rfl

/-- Whether no removal is refused, and some workers hold a scratch directory each on an unchanged
ground. -/
def Lodged (fs₀ : FileSystem) (base : Path) (name : Nat → Bytes) (held : Nat → Bool)
    (m : Machine) : Prop :=
  (∀ r ∈ m.refusals, r = none) ∧ ∃ ground b, Lodging fs₀ base name held ground b m.files

namespace Lodged

variable {fs₀ : FileSystem} {base : Path} {name : Nat → Bytes} {held : Nat → Bool} {m m' : Machine}
  {n : Nat}

/-- A removal that is not refused does what the files allow. -/
theorem removeTree_eq {p : Path} {fs' : FileSystem} (hr : ∀ r ∈ m.refusals, r = none)
    (h : m.files.removeTree p = .ok fs') : ∃ rs, (∀ r ∈ rs, r = none) ∧
      m.removeTree p = (.ok (), { m with files := fs', refusals := rs }) := by
  obtain ⟨files, started, refusals⟩ := m
  cases refusals with
  | nil => exact ⟨[], nofun, by simp only [Machine.removeTree, Machine.attempt, h]⟩
  | cons r rs =>
    obtain ⟨rfl, hrest⟩ := List.forall_mem_cons.1 hr
    exact ⟨rs, hrest, by simp only [Machine.removeTree, Machine.attempt, h]⟩

/-- To make a scratch directory comes to one that is held, or to none. -/
theorem create (h : Lodged fs₀ base name held m) (hheld : held n = false)
    (hs : IsSegment (name n)) {label id : String}
    (hname : name n = Text.Utf8.encode (Scratch.dirName label id)) :
    ∃ own, Lodged fs₀ base name (Function.update held n own)
        (Scratch.create base label id m).2 ∧
      ((∃ why, (Scratch.create base label id m).1 = .error why ∧ own = false) ∨
        (Scratch.create base label id m).1 = .ok ⟨base.join ⟨name n⟩, false⟩ ∧ own = true) := by
  obtain ⟨hr, ground, b, hlodging⟩ := h
  have hpath : base.child (Scratch.dirName label id) = base.join ⟨name n⟩ := by rw [hname]; rfl
  have hsame : Function.update held n false = held := by rw [← hheld, Function.update_eq_self]
  simp only [Scratch.create, hpath, Machine.onFiles]
  cases hdirs : m.files.makeDirs base with
  | mk made fs₁ =>
    obtain ⟨ground', b', hlodging', hleads⟩ := hlodging.makeDirs hdirs
    cases made with
    | error why =>
      exact ⟨false, ⟨hr, ground', b', hsame.symm ▸ hlodging'⟩, .inl ⟨_, rfl, rfl⟩⟩
    | ok _ =>
      simp only [Machine.attempt]
      cases hm : fs₁.makeDir (base.join ⟨name n⟩) with
      | error why =>
        exact ⟨false, ⟨hr, ground', b', hsame.symm ▸ hlodging'⟩, .inl ⟨_, rfl, rfl⟩⟩
      | ok fs₂ =>
        exact ⟨true, ⟨hr, ground', b', hlodging'.enter (hleads rfl) hs hm⟩, .inr ⟨rfl, rfl⟩⟩

/-- A program that is told to write into the directory of somebody, or not to write at all. -/
theorem run (h : Lodged fs₀ base name held m) (hn : held n = true) (hs : IsSegment (name n))
    {host : Host} (hw : host.WritesOutputs) {i : Invocation} (limit : Duration)
    (ho : ∀ p, (Invocation.operands i.args).output = some p →
      ∃ x, IsSegment x ∧ p = (base.join ⟨name n⟩).join ⟨x⟩) :
    Lodged fs₀ base name held (i.run host limit m).2 := by
  obtain ⟨hr, ground, b, hlodging⟩ := h
  rw [Invocation.run]
  cases hl : host.locate m.files i with
  | error why => exact ⟨hr, ground, b, hlodging⟩
  | ok image =>
    refine ⟨hr, ground, b, ?_⟩
    show Lodging _ _ _ _ _ _ (host.act m.files image limit).files
    obtain hsame | ⟨p, f, hp, hwrite⟩ := hw m.files i image limit hl
    · rw [hsame]
      exact hlodging
    · obtain ⟨x, hx, rfl⟩ := ho p hp
      exact hlodging.write hn hs hx hwrite

theorem cleanup (h : Lodged fs₀ base name held m) (hn : held n = true) (hs : IsSegment (name n)) :
    ∃ m', (⟨base.join ⟨name n⟩, false⟩ : Scratch).cleanup m =
        (.ok (), ⟨base.join ⟨name n⟩, true⟩, m') ∧
      Lodged fs₀ base name (Function.update held n false) m' := by
  obtain ⟨hr, ground, b, hlodging⟩ := h
  obtain ⟨hremove, hleft⟩ := hlodging.leave hn hs
  obtain ⟨rs, hrs, hm⟩ := removeTree_eq hr hremove
  refine ⟨_, ?_, (⟨hrs, ground, b, hleft⟩ : Lodged _ _ _ _ ⟨_, m.started, rs⟩)⟩
  rw [Scratch.cleanup_eq rfl, hm]
  rfl

end Lodged

namespace Harness

section

variable {host : Host} {c : Config} {fs₀ : FileSystem} {base : Path} {name : Nat → Bytes} {n : Nat}
  (hw : host.WritesOutputs) (hs : IsSegment (name n)) (limit : Duration)

include hw hs in
theorem keeps_stages {t : Toolchain} (ss : List Stage) {input : Path}
    (hne : input.bytes ≠ Invocation.outputOption) :
    (Build.stages host t limit ⟨base.join ⟨name n⟩, false⟩ ss input).Keeps
      (Lodged fs₀ base name) n (fun _ own => own = true) true := by
  induction ss generalizing input with
  | nil => exact rfl
  | cons s ss ih =>
    refine Task.keeps_bind (Q := fun _ own => own = true) (Task.keeps_map ?_) fun o own hown => ?_
    · refine Task.keeps_act_same fun held m hheld h => ⟨h.run hheld hs hw limit fun p hp => ?_, rfl⟩
      rw [t.output_invocation s _ hne] at hp
      exact ⟨_, Site.isSegment_outputName s, (Option.some.inj hp).symm⟩
    · obtain rfl : own = true := hown
      cases o with
      | some r => exact rfl
      | none => exact ih (Site.child_ne_outputOption _ (by cases s <;> decide))

include hs in
theorem keeps_drop : (Task.change (⟨base.join ⟨name n⟩, false⟩ : Scratch).drop).Keeps
    (Lodged fs₀ base name) n (fun _ own => own = false) true := by
  refine Task.keeps_act (f := fun m => ((), (⟨base.join ⟨name n⟩, false⟩ : Scratch).drop m))
    fun held m hheld h => ?_
  obtain ⟨m', hm', hleft⟩ := h.cleanup hheld hs
  refine ⟨false, ?_, rfl⟩
  rw [Scratch.drop, hm']
  exact hleft

include hw hs in
/-- A build that succeeds leaves its directory to the artifact, and one that fails removes it. -/
theorem keeps_build {t : Toolchain} {f : Fixture} :
    ((t.pipeline host limit).build f ⟨base.join ⟨name n⟩, false⟩).Keeps (Lodged fs₀ base name) n
      (fun built own => (∃ why, built = .error why ∧ own = false) ∨
        ∃ binary, built = .ok ⟨⟨base.join ⟨name n⟩, false⟩, binary⟩ ∧ own = true) true := by
  refine Task.keeps_bind (keeps_stages hw hs limit _ Site.source_ne_option) fun o own hown => ?_
  obtain rfl : own = true := hown
  cases o with
  | none => exact .inr ⟨_, rfl, rfl⟩
  | some why =>
    refine Task.keeps_bind (keeps_drop hs) fun _ own hown => ?_
    exact .inl ⟨why, rfl, hown⟩

include hw hs in
theorem keeps_execute (a : Artifact) (f : Fixture) :
    (execute host limit a f).Keeps (Lodged fs₀ base name) n (fun _ own => own = true) true := by
  refine Task.keeps_bind (Q := fun _ own => own = true) ?_ fun fared own hown => ?_
  · refine Task.keeps_act_same fun held m hheld h => ⟨h.run hheld hs hw limit ?_, rfl⟩
    -- the program has no arguments, so it is told to write nowhere
    exact fun p hp => nomatch hp
  · obtain rfl : own = true := hown
    cases fared with
    | error why => exact rfl
    | ok finish =>
      cases finish with
      | timedOut after => exact rfl
      | completed o =>
        refine Task.keeps_bind (Q := fun _ own => own = true) (Task.keeps_look fun _ => rfl)
          fun exit own hown => ?_
        obtain rfl : own = true := hown
        exact Task.keeps_bind (Q := fun _ own => own = true) (Task.keeps_look fun _ => rfl)
          fun stdout own hown => hown

include hs in
/-- To release an artifact removes its directory at the first attempt. -/
theorem keeps_release (binary : Path) :
    (Artifact.release ⟨⟨base.join ⟨name n⟩, false⟩, binary⟩).Keeps (Lodged fs₀ base name) n
      (fun _ own => own = false) true := by
  refine Task.keeps_bind (Q := fun r own => r.2.removed = true ∧ own = false) ?_ ?_
  · refine Task.keeps_act fun held m hheld h => ?_
    obtain ⟨m', hm', hleft⟩ := h.cleanup hheld hs
    refine ⟨false, ?_, ?_, rfl⟩
    · simp only [hm']
      exact hleft
    · simp only [hm']
  · rintro ⟨outcome, path, removed⟩ own ⟨rfl, hown⟩
    exact hown

end

/-- Every cycle makes at most its own directory, keeps all else as it is, and removes the directory
before it ends. -/
theorem enters_cycle {host : Host} (hw : host.WritesOutputs) (c : Config) {fs₀ : FileSystem}
    {name : Nat → Bytes} {n : Nat} (hs : IsSegment (name n)) {id suite : String} {f : Fixture}
    (hname : name n = Text.Utf8.encode (Scratch.dirName (label suite f) id)) :
    ((ofConfig host c).cycle id suite f).Enters (Lodged fs₀ (c.scratchBase host.tempDir) name) n
      (fun _ own => own = false) := by
  refine Task.enters_act_bind (Q := fun (made : Except Error Scratch) own =>
    (∃ why, made = .error why ∧ own = false) ∨
      made = .ok ⟨(c.scratchBase host.tempDir).join ⟨name n⟩, false⟩ ∧ own = true)
    (fun held m hheld h => h.create hheld hs hname) ?_
  rintro made own (⟨why, rfl, rfl⟩ | ⟨rfl, rfl⟩)
  · exact rfl
  refine Task.keeps_bind (keeps_build hw hs c.limits.stage) ?_
  rintro built own (⟨why, rfl, rfl⟩ | ⟨binary, rfl, rfl⟩)
  · exact rfl
  refine Task.keeps_map ?_
  refine Task.keeps_bind (keeps_execute hw hs c.limits.run _ f) fun e own hown => ?_
  obtain rfl : own = true := hown
  refine Task.keeps_bind (keeps_release hs binary) fun outcome own hown => ?_
  cases outcome <;> exact hown

/-! ### The run -/

variable {host : Host} {c : Config} {ids : Nat → String} {suites : List Suite} {m : Machine}

/-- The path of the scratch directory of a job, by its number. -/
def scratchPath (host : Host) (c : Config) (ids : Nat → String) (suites : List Suite) (n : Nat) :
    Path := (c.scratchBase host.tempDir).join ⟨scratchName ids suites n⟩

theorem isSegment_scratchName (hids : ∀ n, ∃ k, ids n = Scratch.idOf k) {n : Nat}
    (hn : n < (jobs suites).length) : IsSegment (scratchName ids suites n) := by
  obtain ⟨j, hj⟩ := exists_job hn
  obtain ⟨k, hk⟩ := hids n
  rw [scratchName_eq hj, hk]
  exact Scratch.isSegment_dirName (Scratch.isId_encode_idOf k).slash_not_mem

/-- What a cycle does that is cut off in the middle: it drops its scratch directory. -/
def unwinding (host : Host) (c : Config) (ids : Nat → String) (suites : List Suite) (n : Nat) :
    Task Machine FixtureResult := do
  Task.change (⟨scratchPath host c ids suites n, false⟩ : Scratch).drop
  .dead

theorem keeps_unwinding {fs₀ : FileSystem} (hids : ∀ n, ∃ k, ids n = Scratch.idOf k) {n : Nat}
    (hn : n < (jobs suites).length) : (unwinding host c ids suites n).Keeps
      (Lodged fs₀ (c.scratchBase host.tempDir) (scratchName ids suites)) n
      (fun _ own => own = false) true :=
  Task.keeps_bind (keeps_drop (isSegment_scratchName hids hn)) fun _ _ hown => hown

/-- At the start nobody holds a scratch directory, and every cycle will remove its own. -/
theorem kept_pool (hw : host.WritesOutputs) (c : Config)
    (hids : ∀ n, ∃ k, ids n = Scratch.idOf k) (hr : ∀ r ∈ m.refusals, r = none) :
    ((ofConfig host c).pool ids suites m).Kept
      (Lodged m.files (c.scratchBase host.tempDir) (scratchName ids suites)) []
      (fun _ => False) fun _ => false := by
  refine Pool.kept_of_spawned ⟨hr, m.files, [], .of_grown (.refl _ _) (fun _ => rfl) []⟩ ?_
  intro n w hn
  rw [getElem?_pool_workers] at hn
  obtain ⟨j, hj, rfl⟩ := Option.map_eq_some_iff.1 hn
  have hlt := (List.getElem?_eq_some_iff.1 hj).1
  exact ⟨_, rfl, enters_cycle hw c (isSegment_scratchName hids hlt) (scratchName_eq hj)⟩

variable {es : List Pool.Event} {p : Pool Machine FixtureResult}

/-- At any time the invariant holds of the workers that run. -/
theorem kept_of_history (hw : host.WritesOutputs) (c : Config)
    (hids : ∀ n, ∃ k, ids n = Scratch.idOf k) (hr : ∀ r ∈ m.refusals, r = none)
    (hh : History (unwinding host c ids suites) ((ofConfig host c).pool ids suites m) es p) :
    ∃ held, p.Kept (Lodged m.files (c.scratchBase host.tempDir) (scratchName ids suites)) es
      (fun _ => False) held := by
  refine (kept_pool hw c hids hr).history (fun i hi => keeps_unwinding hids ?_) hh
  rwa [length_workers_pool] at hi

/-- The files are intact but for the directories of workers that run or were cut off. -/
theorem intact_of_kept {fs₀ : FileSystem} {cut : Nat → Prop} {held : Nat → Bool}
    (hids : ∀ n, ∃ k, ids n = Scratch.idOf k) (hlen : p.workers.length = (jobs suites).length)
    (hkept : p.Kept (Lodged fs₀ (c.scratchBase host.tempDir) (scratchName ids suites)) es cut
      held) :
    fs₀.Intact (c.scratchBase host.tempDir) (scratchPath host c ids suites)
      (fun i => p.Runs i ∨ cut i) p.shared.files := by
  obtain ⟨-, ground, b, hlodging⟩ := hkept.state
  refine (hlodging.intact fun i hi => ?_).mono fun i => hkept.runs_or_cutOff
  refine isSegment_scratchName hids ?_
  by_contra hle
  cases hi.symm.trans (hkept.beyond i (hlen ▸ Nat.not_lt.1 hle))

/-- Programs write nothing but what they are told to write, and no removal is refused. Then, at
every point of a run, whichever workers are cut off and unwind: all is as it was, but for directories
at the scratch base or above it and for the scratch directories of workers that run. When all is done
there are none of those. And every run for which there are permits comes to an end, at which there
are none but of workers that its schedule makes vanish. -/
theorem leaves_intact (hw : host.WritesOutputs) (c : Config) (ids : Nat → String)
    (hids : ∀ n, ∃ k, ids n = Scratch.idOf k) (suites : List Suite) (m : Machine)
    (hr : ∀ r ∈ m.refusals, r = none) :
    (∀ es p, History (unwinding host c ids suites) ((ofConfig host c).pool ids suites m) es p →
      m.files.Intact (c.scratchBase host.tempDir) (scratchPath host c ids suites) p.Runs
        p.shared.files ∧
      (p.finished = true → m.files.Intact (c.scratchBase host.tempDir)
        (scratchPath host c ids suites) (fun _ => False) p.shared.files)) ∧
    ∀ schedule, c.jobs ≤ permitLimit →
      ∃ r m', (ofConfig host c).run ids schedule suites m = some (r, m') ∧
        m.files.Intact (c.scratchBase host.tempDir) (scratchPath host c ids suites)
          (fun i => .die i ∈ schedule) m'.files := by
  refine ⟨fun es p hh => ?_, fun schedule hjobs => ?_⟩
  · obtain ⟨held, hkept⟩ := kept_of_history hw c hids hr hh
    have hlen : p.workers.length = (jobs suites).length := by
      rw [hh.length_workers, length_workers_pool]
    have hintact := intact_of_kept hids hlen hkept
    exact ⟨hintact.mono fun i hi => hi.resolve_right id,
      fun hfin => hintact.mono fun i hi => Pool.not_runs_of_finished hfin (hi.resolve_right id)⟩
  · have hpermits : max (ofConfig host c).config.jobs 1 ≤ permitLimit :=
      Nat.max_le.2 ⟨hjobs, by decide⟩
    rw [run, if_neg (Nat.not_lt.2 hpermits)]
    refine ⟨_, _, rfl, ?_⟩
    obtain ⟨es, ht, hes⟩ :=
      Pool.exists_trace_play ((ofConfig host c).pool ids suites m) schedule
    obtain ⟨es', ht', hcut⟩ := Pool.exists_trace_of_uncut
      (Pool.uncut_drain (((ofConfig host c).pool ids suites m).play schedule))
    have hall := ht.append ht'
    obtain ⟨held, hkept⟩ := (kept_pool hw c hids hr).trace hall
    have hlen := hall.length_workers.trans (length_workers_pool ..)
    refine (intact_of_kept hids hlen hkept).mono fun i hi => ?_
    obtain hrun | hdie := hi
    · exact absurd hrun (Pool.not_runs_of_finished (drain_of_reachable ht.reachable).2)
    · obtain hdie | hdie := List.mem_append.1 hdie
      · exact hes.subset hdie
      · exact absurd trivial (hcut _ hdie)

/-- Two fixtures that are built and run at the same time leave nothing behind but the base. -/
theorem leaves_intact_abreast : ∃ r m',
    (ofConfig Copying.host (Abreast.config 2)).run Scratch.idOf Abreast.schedule Abreast.suites
      Abreast.machine = some (r, m') ∧
    Abreast.machine.files.Intact (.ofString "/v/t/u")
      (scratchPath Copying.host (Abreast.config 2) Scratch.idOf Abreast.suites) (fun _ => False)
      m'.files := by
  have hcut : ∀ i, .die i ∉ Abreast.schedule := by simp [Abreast.schedule]
  obtain ⟨-, hrun⟩ := leaves_intact Copying.confined.writesOutputs (Abreast.config 2) Scratch.idOf
    (fun n => ⟨n, rfl⟩) Abreast.suites Abreast.machine (List.forall_mem_nil _)
  obtain ⟨r, m', hr, hintact⟩ := hrun Abreast.schedule (by decide)
  exact ⟨r, m', hr, hintact.mono hcut⟩

end Harness

end Assay
