import Assay.Proofs.Run.Apart
import Assay.Proofs.Run.Leaving
import Assay.Proofs.Run.Surroundings
import Mathlib.Logic.Relation

/-!
# Run — a partition of what cycles change

On a machine on which the directories above the scratch directories are made, as far as they can be
(`prepared`), the cycles of a run do not see each other, and together they leave the machine as it
was (`exists_partition`): either each of them has a directory of its own, or none can make one. The
first step of each makes the directories above, so it may as well find them made
(`startsAlike_tasks`).
-/

namespace Assay

open FileSystem (Same Agree)
open Text.Utf8 (encode)

/-- Whether to make directories again comes to the same as to make them. -/
def FileSystem.Settles (fs : FileSystem) (p : Path) : Prop :=
  (fs.makeDirs p).2.makeDirs p = fs.makeDirs p

/-- A base that could be made settles. -/
theorem FileSystem.settles_of_made {fs : FileSystem} {p : Path} (h : (fs.makeDirs p).1 = .ok ()) :
    fs.Settles p := by
  have hmade : fs.makeDirs p = (.ok (), (fs.makeDirs p).2) := Prod.ext h rfl
  rw [Settles, makeDirs_of_ready (ready_of_makeDirs hmade), ← hmade]

/-- What is ready leads somewhere. -/
theorem FileSystem.Ready.based {fs : FileSystem} {p : Path} (h : fs.Ready p) :
    ∃ place, p.isEmpty = true ∧ place = fs.cwd ∨ fs.openDir p = .ok place := by
  obtain hempty | hdir := h
  · exact ⟨fs.cwd, .inl ⟨hempty, rfl⟩⟩
  · obtain ⟨place, hplace⟩ := isDir_iff.1 hdir
    exact ⟨place, .inr (openDir_eq_ok.2 hplace)⟩

namespace Machine.Like

variable {m m' m'' : Machine}

theorem refl (m : Machine) : m.Like m := ⟨rfl, .refl _⟩

theorem symm (h : m.Like m') : m'.Like m := ⟨h.1.symm, h.2.symm⟩

theorem trans (h : m.Like m') (h' : m'.Like m'') : m.Like m'' :=
  ⟨h.1.trans h'.1, h.2.trans h'.2⟩

end Machine.Like

/-- Whether some tasks, each of them with what it can see and what it may change, are apart from
each other on machines like `m`, and together leave such a machine. -/
structure Partition (tasks : List (Task Machine FixtureResult)) (m : Machine)
    (alike frame : Nat → Machine → Machine → Prop) : Prop where
  isolation : Isolation tasks alike frame
  like : ∀ g s, g.Like m → s.Like m → ∀ n, alike n g s
  restored : ∀ g, Relation.ReflTransGen (fun g g' => ∃ n, frame n g g') m g →
    (∀ n t, tasks[n]? = some t → alike n g (t.run m).2) → g.Like m

/-- No task can tell the machine from itself. -/
theorem Partition.like_self {tasks : List (Task Machine FixtureResult)} {m : Machine}
    {alike frame : Nat → Machine → Machine → Prop} (h : Partition tasks m alike frame) (n : Nat) :
    alike n m m := h.like m m (.refl m) (.refl m) n

/-! ### Directories side by side -/

namespace Site

variable {S : Site} {n : Nat} {m g : Machine}

/-- A machine that is like a calm one is calm. -/
theorem Calm.of_like (h : S.Calm n m) (hg : g.Like m) : S.Calm n g :=
  ⟨hg.1.trans h.1, h.2.of_same hg.2.same⟩

/-- Steps within the directories change nothing outside them. -/
theorem same_of_steps (h : Relation.ReflTransGen (fun g g' => ∃ n, S.Within n g g') m g) :
    g.refusals = m.refusals ∧ Same (S.Names fun _ => True) S.place g.files m.files := by
  induction h with
  | refl => exact ⟨rfl, .refl _⟩
  | tail _ hstep ih =>
    obtain ⟨k, hrefusals, hfiles⟩ := hstep
    exact ⟨hrefusals.trans ih.1, (hfiles.mono fun _ => Names.mono fun _ _ => trivial).trans ih.2⟩

/-- Where nothing has changed but in the directories, and each of these sees itself as it was, all
is as it was. -/
theorem like_of_parts (hout : Relation.ReflTransGen (fun g g' => ∃ n, S.Within n g g') m g)
    (hin : ∀ n < S.count, ∃ s, s.Like m ∧ S.Alike n g s) : g.Like m := by
  obtain ⟨hrefusals, hsame⟩ := same_of_steps hout
  refine ⟨hrefusals, FileSystem.agree_iff.2 ⟨hsame.cwd, fun l => ?_⟩⟩
  -- a place is outside all directories, or in one of them, and that sees itself as it was
  by_cases hl : FileSystem.Clear (S.Names fun _ => True) S.place l
  · exact hsame.get? l hl
  · obtain ⟨_, ⟨n, hn, -, rfl⟩, hs⟩ : ∃ x, S.Names (fun _ => True) x ∧ (x :: S.place) <:+ l := by
      simpa [FileSystem.Clear] using hl
    obtain ⟨s, hlike, halike⟩ := hin n hn
    exact (halike.2.2.get? l (clear_own hn hs)).trans ((FileSystem.agree_iff.1 hlike.2).2 l)

end Site

namespace Harness

/-- A machine on which the directories above the scratch directories are made, as far as they can
be. -/
def prepared (host : Host) (c : Config) (m : Machine) : Machine :=
  { m with files := (m.files.makeDirs (c.scratchBase host.tempDir)).2 }

variable {host : Host} {c : Config} {ids : Nat → String} {suites : List Suite} {m : Machine}

/-- Each task of a run is the cycle of a job. -/
theorem exists_job_of_task {h : Harness} {n : Nat} {t : Task Machine FixtureResult}
    (ht : (h.tasks ids suites)[n]? = some t) :
    ∃ j, (jobs suites)[n]? = some j ∧ t = h.cycle (ids n) j.suite j.fixture := by
  rw [getElem?_tasks] at ht
  obtain ⟨j, hj, rfl⟩ := Option.map_eq_some_iff.1 ht
  exact ⟨j, hj, rfl⟩

/-- If nobody knows the ids, the cycles of a run keep apart in their scratch directories. -/
theorem partition_site {hc : host.Confined} {fs : FileSystem} (h : Unknown ids host c suites fs)
    (hg : ∀ n < (jobs suites).length, hc.NeverGuesses (encode (ids n))) {place : Loc}
    (hcalm : ∀ n, (site h place).Calm n m) :
    Partition ((ofConfig host c).tasks ids suites) m (site h place).Alike
      (site h place).Within where
  isolation := by
    refine ⟨fun n t ht => ?_, fun _ _ _ _ _ hne hw ha => Site.alike_of_within hne hw ha⟩
    obtain ⟨j, hj, rfl⟩ := exists_job_of_task ht
    exact Site.isolated_cycle (ignores_site h hg) (isFree_site h)
      (free_of_mem_texts h (mem_texts_of_job hj List.mem_cons_self))
      (List.getElem?_eq_some_iff.1 hj).1 rfl (scratchName_eq hj)
  like g s hg hs n := ⟨(hcalm n).of_like hg, (hcalm n).of_like hs, (hg.trans hs.symm).2.same⟩
  restored g hsteps hends := Site.like_of_parts hsteps fun n hn => by
    obtain ⟨j, hj⟩ := exists_job hn
    refine ⟨_, ?_, hends n ((ofConfig host c).task ids n j) (by rw [getElem?_tasks, hj]; rfl)⟩
    exact Site.like_of_cycle (ignores_site h hg) (isFree_site h)
      (free_of_mem_texts h (mem_texts_of_job hj List.mem_cons_self)) hn rfl (scratchName_eq hj)
      (hcalm n)

/-! ### No directory at all -/

/-- Where the directories above cannot be made no scratch directory is, and nothing changes. -/
theorem create_of_failed {base : Path} {why : Fault}
    (hfail : m.files.makeDirs base = (.error why, m.files)) (label id : String) {g : Machine}
    (hg : g.Like m) :
    ∃ g', Scratch.create base label id g = (.error (.scratch base why), g') ∧ g'.Like g := by
  obtain ⟨hmade, hagree⟩ := FileSystem.makeDirs_same (p := base) hg.2
  rw [hfail] at hmade hagree
  have hdirs : g.onFiles (·.makeDirs base) =
      (.error why, { g with files := (g.files.makeDirs base).2 }) := Prod.ext hmade rfl
  refine ⟨{ g with files := (g.files.makeDirs base).2 }, ?_, rfl, hagree.trans hg.2.symm⟩
  rw [Scratch.create, hdirs]

/-- If the base cannot be made and nothing is left of it, no cycle changes anything. -/
theorem partition_of_failed {why : Fault}
    (hfail : m.files.makeDirs (c.scratchBase host.tempDir) = (.error why, m.files)) :
    Partition ((ofConfig host c).tasks ids suites) m (fun _ g s => g.Like m ∧ s.Like m)
      fun _ g g' => g'.Like g where
  isolation := by
    refine ⟨fun n t ht => ?_, fun n k g g' s _ hw ⟨hg, hs⟩ => ⟨hw.trans hg, hs⟩⟩
    obtain ⟨j, -, rfl⟩ := exists_job_of_task ht
    refine Task.isolated_act_bind fun g s ⟨hg, hs⟩ => ?_
    obtain ⟨g', hg', hlike⟩ := create_of_failed hfail (label j.suite j.fixture) (ids n) hg
    obtain ⟨s', hs', hlike'⟩ := create_of_failed hfail (label j.suite j.fixture) (ids n) hs
    simp only [ofConfig, hg', hs']
    exact ⟨trivial, ⟨hlike.trans hg, hlike'.trans hs⟩, hlike, trivial⟩
  like g s hg hs _ := ⟨hg, hs⟩
  restored g hsteps hends := by
    clear hends
    induction hsteps with
    | refl => exact .refl m
    | tail _ hstep ih => exact hstep.choose_spec.trans ih

/-- The cycles of a run do not see each other once the directories above are made, or not at all,
and they leave the machine as it was then. -/
theorem exists_partition {hc : host.Confined} (hrefusals : m.refusals = [])
    (hids : Secret ids hc c suites m.files)
    (hbase : m.files.Settles (c.scratchBase host.tempDir)) :
    ∃ alike frame,
      Partition ((ofConfig host c).tasks ids suites) (prepared host c m) alike frame := by
  cases hmade : (m.files.makeDirs (c.scratchBase host.tempDir)).1 with
  | error why => exact ⟨_, _, partition_of_failed (hbase.trans (Prod.ext hmade rfl))⟩
  | ok _ =>
    have hfiles : m.files.makeDirs (c.scratchBase host.tempDir) =
        (.ok (), (prepared host c m).files) := Prod.ext hmade rfl
    obtain ⟨hwithin, hadds⟩ := FileSystem.adds_of_makeDirs hfiles
    obtain ⟨place, hplace⟩ := (FileSystem.ready_of_makeDirs hfiles).based
    have hcalm : ∀ n, (site hids.unknown place).Calm n (prepared host c m) := fun n =>
      ⟨hrefusals, quiet_site hids.unknown hplace hwithin.cwd.symm hadds⟩
    exact ⟨_, _, partition_site hids.unknown hids.guesses hcalm⟩

/-! ### The first step -/

/-- The first step of a cycle makes the directories above, so it may find them made. -/
theorem startsAlike_cycle (hbase : m.files.Settles (c.scratchBase host.tempDir))
    (id suite : String) (f : Fixture) :
    ((ofConfig host c).cycle id suite f).StartsAlike m (prepared host c m) := by
  have hdirs : m.onFiles (·.makeDirs (c.scratchBase host.tempDir)) =
      (prepared host c m).onFiles (·.makeDirs (c.scratchBase host.tempDir)) := by
    have hagain : (m.files.makeDirs (c.scratchBase host.tempDir)).2.makeDirs _ = _ := hbase
    simp only [Machine.onFiles, prepared, hagain]
  have hcreate : ∀ label, Scratch.create (c.scratchBase host.tempDir) label id m =
      Scratch.create (c.scratchBase host.tempDir) label id (prepared host c m) := fun label => by
    simp only [Scratch.create, hdirs]
  refine Task.StartsAlike.bind ⟨_, _, rfl, ?_, ?_⟩ _
  · exact congrArg Prod.snd (hcreate _)
  · exact congrArg (fun made => Task.done made.1) (hcreate _)

/-- It makes no difference to start from the same machine. -/
theorem startsAlike_self (m : Machine) :
    ∀ t ∈ (ofConfig host c).tasks ids suites, t.StartsAlike m m := by
  intro t ht
  obtain ⟨n, hn⟩ := List.mem_iff_getElem?.1 ht
  obtain ⟨j, -, rfl⟩ := exists_job_of_task hn
  exact Task.StartsAlike.bind ⟨_, _, rfl, rfl, rfl⟩ _

/-- If the base settles, each cycle begins as on the machine on which it has been made. -/
theorem startsAlike_tasks (hbase : m.files.Settles (c.scratchBase host.tempDir)) :
    ∀ t ∈ (ofConfig host c).tasks ids suites, t.StartsAlike m (prepared host c m) := by
  intro t ht
  obtain ⟨n, hn⟩ := List.mem_iff_getElem?.1 ht
  obtain ⟨j, -, rfl⟩ := exists_job_of_task hn
  exact startsAlike_cycle hbase _ _ _

end Harness

end Assay
