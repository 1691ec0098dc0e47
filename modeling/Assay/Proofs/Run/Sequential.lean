import Assay.Proofs.Pool.Sequence
import Assay.Proofs.Pool.Unwinding
import Assay.Proofs.Run.Interleaving

/-!
# Run — with one job

With one job no two cycles overlap, and the cycles are run in the order in which their workers first
ask for a permit (`one_after_another`). If that is the order of the fixtures then the run is that of
the fixtures one after another, to the last file. But nothing makes the workers ask in the order of
the fixtures, so the second cycle can be over before the first begins (`ended_before_first`).
-/

namespace Assay.Harness

open Pool (History Trace asked after Completed Sequential)

variable {h : Harness} {ids : Nat → String} {suites : List Suite} {m : Machine}
  {p : Pool Machine FixtureResult}

/-- To do tasks in two parts leaves the same as to do them at once. -/
theorem after_append {σ ρ : Type} (tasks : List (Task σ ρ)) (m : σ) (is js : List Nat) :
    after tasks m (is ++ js) = after tasks (after tasks m is) js := List.foldl_append

/-- Tasks are completed in a row if those of the first part are and the others go on from there. -/
theorem completed_append {σ ρ : Type} {tasks : List (Task σ ρ)} {p : Pool σ ρ} {m : σ}
    {is js : List Nat} :
    p.Completed tasks m (is ++ js) ↔
      p.Completed tasks m is ∧ p.Completed tasks (after tasks m is) js := by
  induction is generalizing m with
  | nil => exact (and_iff_right trivial).symm
  | cons i is ih =>
    constructor
    · rintro ⟨t, seat, ht, hw, hrest⟩
      have hafter : after tasks m (i :: is) = after tasks (t.run m).2 is := by simp [after, ht]
      obtain ⟨his, hjs⟩ := ih.1 hrest
      exact ⟨⟨t, seat, ht, hw, his⟩, hafter ▸ hjs⟩
    · rintro ⟨⟨t, seat, ht, hw, his⟩, hjs⟩
      have hafter : after tasks m (i :: is) = after tasks (t.run m).2 is := by simp [after, ht]
      exact ⟨t, seat, ht, hw, ih.2 ⟨his, hafter ▸ hjs⟩⟩

/-! ### In the order of the fixtures -/

/-- What a worker has sent, by its number. -/
def sent (p : Pool Machine FixtureResult) (n : Nat) : Option FixtureResult :=
  match p.workers[n]? with
  | some ⟨_, .ended sent⟩ => sent
  | _                     => none

/-- What a worker has sent is what it ended with. -/
theorem sent_of_ended {n : Nat} {seat : Seat} {r : Option FixtureResult}
    (hw : p.workers[n]? = some ⟨seat, .ended r⟩) : sent p n = r := by
  rw [sent, hw]

/-- The result at a place, by what the worker of its number has sent. -/
def received (p : Pool Machine FixtureResult) (suite : String) (n : Nat) (f : Fixture) :
    FixtureResult := (sent p n).getD (aborted suite f)

variable {tasks : List (Task Machine FixtureResult)}

/-- If the fixtures of a suite were completed in their order, a run in order gives what their
workers have sent. -/
theorem runFixtures_of_completed {suite : String} {fs : List Fixture} {n : Nat}
    (hfs : ∀ k f, fs[k]? = some f → tasks[n + k]? = some (h.cycle (ids (n + k)) suite f))
    (hc : p.Completed tasks m (List.range' n fs.length)) :
    h.runFixtures ids suite n fs m =
      (fs.mapIdx fun k f => received p suite (n + k) f,
        after tasks m (List.range' n fs.length)) := by
  induction fs generalizing n m with
  | nil => rfl
  | cons f fs ih =>
    obtain ⟨t, seat, ht, hw, hrest⟩ := hc
    have hshift : ∀ k, n + 1 + k = n + (k + 1) := fun k => by omega
    obtain rfl : t = h.cycle (ids n) suite f := Option.some.inj (ht.symm.trans (hfs 0 f rfl))
    have htail := ih (n := n + 1) (fun k f' hf' => by
      rw [hshift]
      exact hfs (k + 1) f' hf') hrest
    have hafter : after tasks m (List.range' n (f :: fs).length) =
        after tasks ((h.cycle (ids n) suite f).run m).2 (List.range' (n + 1) fs.length) := by
      simp only [after, List.length_cons, List.range'_succ, List.foldl_cons, ht]
      rfl
    simp only [hshift] at htail
    have hhead : received p suite n f =
        ((h.cycle (ids n) suite f).run m).1.getD (aborted suite f) := by
      rw [received, sent_of_ended hw]
    rw [hafter, runFixtures, List.mapIdx_cons]
    simp only [htail, Nat.add_zero, hhead]

/-- If the fixtures of all suites were completed in their order, so does a run of all suites in
order. -/
theorem runSuites_of_completed {n : Nat}
    (hss : ∀ i k s f, suites[i]? = some s → s.fixtures[k]? = some f →
      tasks[n + firstJob suites i + k]? =
        some (h.cycle (ids (n + firstJob suites i + k)) s.name f))
    (hc : p.Completed tasks m (List.range' n (firstJob suites suites.length))) :
    h.runSuites ids n suites m = (apartSuites (received p) n suites,
      after tasks m (List.range' n (firstJob suites suites.length))) := by
  induction suites generalizing n m with
  | nil => rfl
  | cons s ss ih =>
    have hfirst : ∀ i, firstJob (s :: ss) (i + 1) = s.size + firstJob ss i := fun i => by
      rw [firstJob, List.take_succ_cons, List.map_cons, List.sum_cons, firstJob]
    have hrange : List.range' n (firstJob (s :: ss) (s :: ss).length) =
        List.range' n s.fixtures.length ++
          List.range' (n + s.size) (firstJob ss ss.length) := by
      rw [List.length_cons, hfirst, ← List.range'_append_1, Suite.size]
    rw [hrange] at hc ⊢
    obtain ⟨hrow, hrest⟩ := completed_append.1 hc
    have hfs : h.runFixtures ids s.name n s.fixtures m = _ :=
      runFixtures_of_completed (fun k f hf => hss 0 k s f rfl hf) hrow
    have hreports := ih (n := n + s.size) (fun i k s' f hs' hf => by
      rw [Nat.add_assoc n, ← hfirst]
      exact hss (i + 1) k s' f hs' hf) hrest
    rw [runSuites, hfs]
    simp only [hreports]
    rw [apartSuites, after_append]

/-- Behind the last suite all fixtures have been counted. -/
theorem firstJob_length (suites : List Suite) :
    firstJob suites suites.length = (jobs suites).length := by
  rw [length_jobs, firstJob, List.take_length]

/-- A pool that has completed the fixtures in their order has run them one after another. -/
theorem runInOrder_of_completed (hp : Pool.Reachable (h.pool ids suites m) p)
    (hfin : p.finished = true)
    (hc : p.Completed (h.tasks ids suites) m (List.range (jobs suites).length)) :
    h.runInOrder ids suites m =
      (report suites p.board, after (h.tasks ids suites) m (List.range (jobs suites).length)) := by
  rw [List.range_eq_range', ← firstJob_length] at hc ⊢
  have hruns : h.runSuites ids 0 suites m = _ :=
    runSuites_of_completed (fun i k s f hs hf => by
      rw [Nat.zero_add]
      exact task_of_fixture hs hf) hc
  have hreport : _ = RunReport.mk (apartSuites (received p) 0 suites) _ :=
    report_eq_apartSuites hp hfin fun i k s f r hs hf hw => by rw [received, sent_of_ended hw]
  rw [runInOrder, hruns, hreport]

/-! ### One job -/

/-- The workers of a run are given the tasks of its fixtures, each by its number. -/
theorem assigned_pool (h : Harness) (ids : Nat → String) (suites : List Suite) (m : Machine) :
    (h.pool ids suites m).Assigned (h.tasks ids suites) := by
  rintro i seat t hw
  have hfresh : ∀ {f : Phase Machine FixtureResult},
      (h.pool ids suites m).workers[i]? = some ⟨seat, f⟩ →
        ∃ u, (h.tasks ids suites)[i]? = some u ∧ f = .spawned u :=
    fun hw => fresh_pool h ids suites m i _ hw
  obtain hw | hw := hw
  · obtain ⟨u, hu, hf⟩ := hfresh hw
    cases hf
    exact hu
  · obtain ⟨u, -, hf⟩ := hfresh hw
    cases hf

/-- With one job, under any schedule: at most one cycle is under way, the unwinding of one that is
cut off included, and when one is then all whose workers have asked before its own are over. While
nobody is cut off, each cycle is run from where the one that asked before it has left the machine,
and in the end all have been. If the workers have asked in the order of the fixtures then the run is
that of the fixtures one after another. -/
theorem one_after_another (h : Harness) (ids : Nat → String) (suites : List Suite) (m : Machine)
    (hjobs : h.config.jobs ≤ 1) {unwind : Nat → Task Machine FixtureResult}
    {es : List Pool.Event} {p : Pool Machine FixtureResult}
    (hh : History unwind (h.pool ids suites m) es p) :
    (∀ i j, p.Runs i → p.Runs j → i = j) ∧
    (∀ before j later, asked es = before ++ j :: later → p.Runs j →
      ∀ i ∈ before, p.HasEnded i) ∧
    ((∀ e ∈ es, ¬ e.Cuts) →
      p.Sequential (h.tasks ids suites) m (asked es) ∧
      (p.finished = true →
        (asked es).Perm (List.range (jobs suites).length) ∧
        p.shared = after (h.tasks ids suites) m (asked es) ∧
        p.Completed (h.tasks ids suites) m (asked es) ∧
        (asked es = List.range (jobs suites).length →
          (report suites p.board, p.shared) = h.runInOrder ids suites m))) := by
  have hone : max h.config.jobs 1 = 1 := Nat.max_eq_right hjobs
  have hstart : Pool.Permits 1 (h.pool ids suites m) := hone ▸ permits_pool h ids suites m
  have hp := hstart.history hh
  have horder := (Pool.orderly_of_spawned (spawned_pool h ids suites m) rfl).history hstart hh
  refine ⟨fun i j => Pool.runs_unique hp, fun before j later hes hj i hi => ?_, fun hcut => ?_⟩
  · have hij : [i, j].Sublist (asked es) := by
      rw [hes]
      exact (List.singleton_sublist.2 hi).append (List.singleton_sublist.2 List.mem_cons_self)
    exact horder.ended_of_before hp hij hj
  · have ht := hh.trace hcut
    have hseq := Pool.sequential_of_trace (assigned_pool h ids suites m) hstart hone ht hcut
    refine ⟨hseq, fun hfin => ?_⟩
    obtain ⟨hshared, hc⟩ := hseq.finished hfin
    have hperm := Pool.asked_perm (spawned_pool h ids suites m) horder ht hcut hfin
    rw [ht.length_workers, length_workers_pool] at hperm
    refine ⟨hperm, hshared, hc, fun hrange => ?_⟩
    have hc' := hc
    have hshared' := hshared
    rw [hrange] at hc' hshared'
    rw [runInOrder_of_completed ht.reachable hfin hc', hshared']
    rfl

namespace Alone

/-- Two fixtures and a job. -/
def pool : Pool Machine FixtureResult :=
  (ofConfig Copying.host (Abreast.config 1)).pool Scratch.idOf Abreast.suites Abreast.machine

/-- A worker takes the eight steps of a cycle in which nothing fails, and ends. -/
def cycle (i : Nat) : List Pool.Event := List.replicate 8 (.advance i) ++ [.finish i]

/-- Both workers ask, in the order of their fixtures. -/
def inOrder : List Pool.Event := [.ask 0, .ask 1] ++ cycle 0 ++ cycle 1 ++ [.receive, .receive]

/-- The second worker is the first to get a turn. -/
def outOfOrder : List Pool.Event := .ask 1 :: cycle 1

end Alone

/-- Two fixtures under one job, scheduled in their order, come to the same as in a run in order. -/
theorem one_after_another_inOrder :
    (report Abreast.suites (Alone.pool.play Alone.inOrder).board,
        (Alone.pool.play Alone.inOrder).shared) =
      (ofConfig Copying.host (Abreast.config 1)).runInOrder Scratch.idOf Abreast.suites
        Abreast.machine := by
  have hcut : ∀ e ∈ Alone.inOrder, ¬ e.Cuts := by
    simp [Alone.inOrder, Alone.cycle, Pool.Event.Cuts]
  have hh : History (fun _ => .dead) Alone.pool Alone.inOrder (Alone.pool.play Alone.inOrder) :=
    Pool.history_of_trace (Pool.trace_play (by decide +kernel)) hcut
  obtain ⟨-, -, hrun⟩ := one_after_another _ _ _ _ (Nat.le_refl 1) hh
  exact ((hrun hcut).2 (by decide +kernel)).2.2.2 (by decide)

/-- With one job the second fixture can have passed before the first has begun. -/
theorem ended_before_first :
    Trace Alone.pool Alone.outOfOrder (Alone.pool.play Alone.outOfOrder) ∧
      (Alone.pool.play Alone.outOfOrder).endings =
        [(⟨0, 0⟩, none), (⟨0, 1⟩, some (some ⟨"s", "002-b", .passed, .zero, ""⟩))] :=
  ⟨Pool.trace_play (by decide +kernel), by decide +kernel⟩

end Assay.Harness
