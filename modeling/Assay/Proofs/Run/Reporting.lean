import Assay.Proofs.Pool.Draining
import Assay.Proofs.Run.Results
import Assay.Proofs.Run.Seats

/-!
# Run — the report under any interleaving

Whatever order the workers and the collector take their steps in, and whichever workers are cut off
on the way, the report has the suites and fixtures as they were found: each fixture has the one
result that its task has sent, or counts as aborted if the task ended without sending
(`report_of_interleaving`). On the way every result finds its slot empty and counted.
-/

namespace Assay.Harness

open Pool (Reachable Delivery)

section

variable {h : Harness} {ids : Nat → String} {suites : List Suite} {m : Machine}
  {p q : Pool Machine FixtureResult}

theorem delivery_of_reachable (hp : Reachable (h.pool ids suites m) p) :
    Delivery ((jobs suites).map (·.seat)) (suites.map (·.size)) p :=
  (delivery_pool h ids suites m).reachable (nodup_seats suites) (fun _ => fits_of_mem_jobs) hp

/-- From wherever a run has come to it can come to its end. -/
theorem drain_of_reachable (hp : Reachable (h.pool ids suites m) p) :
    Reachable p p.drain ∧ p.drain.finished = true := by
  have hpermits := (permits_pool h ids suites m).reachable hp
  obtain ⟨n, hn⟩ : ∃ n, max h.config.jobs 1 = n + 1 :=
    Nat.exists_eq_add_one.2 (Nat.lt_of_lt_of_le Nat.one_pos (Nat.le_max_right _ 1))
  exact Pool.drain_finished (nodup_seats suites) (fun _ => fits_of_mem_jobs)
    (delivery_of_reachable hp) (hn ▸ hpermits)

/-- A run has a report unless it has more jobs than a pool has permits. -/
theorem run_eq_none_iff {schedule : List Pool.Event} :
    h.run ids schedule suites m = none ↔ permitLimit < h.config.jobs := by
  have hone : 1 ≤ permitLimit := by decide
  rw [run]
  split
  next hlt => exact iff_of_true rfl (by omega)
  next hle => exact iff_of_false nofun (by omega)

/-- Whatever a run returns is the report of a pool that it can come to and that has finished. -/
theorem reachable_of_run {schedule : List Pool.Event} {r : RunReport} {m' : Machine}
    (hr : h.run ids schedule suites m = some (r, m')) :
    ∃ p, Reachable (h.pool ids suites m) p ∧ p.finished = true ∧ r = report suites p.board ∧
      m' = p.shared := by
  unfold run at hr
  split at hr
  · cases hr
  · cases hr
    have hplay := Pool.reachable_play (h.pool ids suites m) schedule
    obtain ⟨hdrain, hfin⟩ := drain_of_reachable hplay
    exact ⟨_, hplay.trans hdrain, hfin, rfl, rfl⟩

/-- With as many jobs as a pool has permits, or fewer, a run returns such a report. -/
theorem exists_run (hle : h.config.jobs ≤ permitLimit) (schedule : List Pool.Event) :
    ∃ p, Reachable (h.pool ids suites m) p ∧ p.finished = true ∧
      h.run ids schedule suites m = some (report suites p.board, p.shared) := by
  cases hr : h.run ids schedule suites m with
  | none => exact absurd hle (Nat.not_le.2 (run_eq_none_iff.1 hr))
  | some found =>
    obtain ⟨p, hp, hfin, hreport, hshared⟩ := reachable_of_run hr
    exact ⟨p, hp, hfin, congrArg some (Prod.ext hreport hshared)⟩

/-- The worker of a job keeps the seat of the job. -/
theorem worker_of_job (hp : Reachable (h.pool ids suites m) p) {n : Nat} {j : Job}
    (hj : (jobs suites)[n]? = some j) : ∃ f, p.workers[n]? = some ⟨j.seat, f⟩ := by
  have hseats := (delivery_of_reachable hp).seated
  have hn : (p.endings.map (·.1))[n]? = some j.seat := by
    rw [hseats, List.getElem?_map, hj]
    rfl
  rw [Pool.endings, List.map_map, List.getElem?_map] at hn
  obtain ⟨⟨s, f⟩, hw, rfl⟩ := Option.map_eq_some_iff.1 hn
  exact ⟨f, hw⟩

/-- What holds of all results of a job's task holds of what its worker has sent or can come to. -/
theorem always_of_job {P : FixtureResult → Prop} {n : Nat} {j : Job}
    (hP : (h.task ids n j).Always P) (hp : Reachable (h.pool ids suites m) p)
    (hj : (jobs suites)[n]? = some j) {w : Worker Machine FixtureResult}
    (hw : p.workers[n]? = some w) : w.phase.Always P := by
  refine Pool.always_of_reachable (fun v hv => ?_) hp hw
  rw [getElem?_pool_workers, hj] at hv
  obtain rfl := Option.some.inj hv
  exact hP

/-- At the end the worker of each fixture has ended, and the fixture has what it sent. -/
theorem result_of_job (hp : Reachable (h.pool ids suites m) p) (hfin : p.finished = true) {n : Nat}
    {j : Job} (hj : (jobs suites)[n]? = some j) :
    ∃ sent, p.workers[n]? = some ⟨j.seat, .ended sent⟩ ∧ p.board.slot? j.seat = some sent := by
  obtain ⟨hc, hall⟩ := Pool.finished_iff.1 hfin
  obtain ⟨f, hw⟩ := worker_of_job hp hj
  obtain ⟨sent, hs⟩ := hall _ (List.mem_of_getElem? hw)
  obtain rfl : f = .ended sent := hs
  refine ⟨sent, hw, ?_⟩
  exact (delivery_of_reachable hp).slot_of_finished (nodup_seats suites)
    (fun _ => fits_of_mem_jobs) hc (List.mem_of_getElem? (Pool.getElem?_endings hw))

/-- A board of the right shape has a row for each suite, as long as the suite. -/
theorem row_of_suite (hp : Reachable (h.pool ids suites m) p) {i : Nat} {s : Suite}
    (hs : suites[i]? = some s) :
    ∃ row, p.board.slots[i]? = some row ∧ row.length = s.fixtures.length := by
  have hshape : p.board.slots.map (·.length) = suites.map (·.size) :=
    (delivery_of_reachable hp).shape
  have hi : (p.board.slots.map (·.length))[i]? = some s.size := by
    rw [hshape, List.getElem?_map, hs]
    rfl
  rw [List.getElem?_map] at hi
  exact Option.map_eq_some_iff.1 hi

theorem names_report (hp : Reachable (h.pool ids suites m) p) :
    (report suites p.board).suites.map (·.name) = suites.map (·.name) := by
  have hlen : suites.length = p.board.slots.length := by
    have hshape : p.board.slots.map (·.length) = suites.map (·.size) :=
      (delivery_of_reachable hp).shape
    have hlen := congrArg List.length hshape
    rw [List.length_map, List.length_map] at hlen
    exact hlen.symm
  refine List.ext_getElem? fun i => ?_
  rw [List.getElem?_map, List.getElem?_map]
  cases hs : suites[i]? with
  | none =>
    have : (report suites p.board).suites[i]? = none := by
      rw [report, List.getElem?_map, List.getElem?_eq_none]
      · rfl
      · rw [List.length_zip, ← hlen, Nat.min_self]
        exact List.getElem?_eq_none_iff.1 hs
    rw [this]
    rfl
  | some s =>
    obtain ⟨row, hrow, -⟩ := row_of_suite hp hs
    rw [getElem?_report hs hrow]
    rfl

/-- The worker at a seat is the one of the job there. -/
theorem job_of_worker (hp : Reachable (h.pool ids suites m) p) {n : Nat}
    {w : Worker Machine FixtureResult} (hw : p.workers[n]? = some w) :
    ∃ j, (jobs suites)[n]? = some j ∧ w.seat = j.seat := by
  have hseats := (delivery_of_reachable hp).seated
  have hn : ((jobs suites).map (·.seat))[n]? = some w.seat := by
    rw [← hseats, List.getElem?_map, Pool.getElem?_endings hw]
    rfl
  rw [List.getElem?_map] at hn
  obtain ⟨j, hj, hs⟩ := Option.map_eq_some_iff.1 hn
  exact ⟨j, hj, hs.symm⟩

/-- No two jobs have the same number. -/
theorem number_unique {n n' : Nat} {j j' : Job} (hj : (jobs suites)[n]? = some j)
    (hj' : (jobs suites)[n']? = some j') (hs : j.seat = j'.seat) : n = n' := by
  have hn : ((jobs suites).map (·.seat))[n]? = some j.seat := by rw [List.getElem?_map, hj]; rfl
  have hn' : ((jobs suites).map (·.seat))[n']? = some j.seat := by
    rw [List.getElem?_map, hj', hs]
    rfl
  obtain ⟨hlt, -⟩ := List.getElem?_eq_some_iff.1 hn
  exact (List.getElem?_inj hlt (nodup_seats suites)).1 (hn.trans hn'.symm)

/-! ### The report -/

/-- The row of a finished pool: the results of a suite in the order of its fixtures. -/
theorem rows_of_finished (hp : Reachable (h.pool ids suites m) p) (hfin : p.finished = true)
    {i : Nat} {s : Suite} (hs : suites[i]? = some s) :
    ∃ rs, (report suites p.board).suites[i]? = some ⟨s.name, rs⟩ ∧
      rs.length = s.fixtures.length ∧
      ∀ k f, s.fixtures[k]? = some f → ∃ (n : Nat) (sent : Option FixtureResult),
        (jobs suites)[n]? = some ⟨⟨i, k⟩, s.name, f⟩ ∧
        p.workers[n]? = some ⟨⟨i, k⟩, .ended sent⟩ ∧
        rs[k]? = some (sent.getD (aborted s.name f)) := by
  obtain ⟨row, hrow, hlen⟩ := row_of_suite hp hs
  refine ⟨_, getElem?_report hs hrow, ?_, fun k f hf => ?_⟩
  · rw [List.length_map, List.length_zip, hlen, Nat.min_self]
  · obtain ⟨n, hj⟩ := List.mem_iff_getElem?.1 (mem_jobs.2 ⟨s, hs, rfl, hf⟩ :
      (⟨⟨i, k⟩, s.name, f⟩ : Job) ∈ jobs suites)
    obtain ⟨sent, hw, hslot⟩ := result_of_job hp hfin hj
    refine ⟨n, sent, hj, hw, ?_⟩
    have hk : row[k]? = some sent := by
      rw [Board.slot?, hrow] at hslot
      exact hslot
    have hz : (s.fixtures.zip row)[k]? = some (f, sent) := List.getElem?_zip_eq_some.2 ⟨hf, hk⟩
    rw [List.getElem?_map, hz]
    rfl

/-- What the report says at a fixture's place bears the names of the fixture and of its suite. -/
theorem named_of_job (hp : Reachable (h.pool ids suites m) p) {n : Nat} {seat : Seat}
    {suite : String} {f : Fixture} (hj : (jobs suites)[n]? = some ⟨seat, suite, f⟩)
    {sent : Option FixtureResult} (hw : p.workers[n]? = some ⟨seat, .ended sent⟩) :
    (sent.getD (aborted suite f)).suite = suite ∧
      (sent.getD (aborted suite f)).identifier = f.identifier := by
  have htask : (h.task ids n ⟨seat, suite, f⟩).Always fun r =>
      r.suite = suite ∧ r.identifier = f.identifier := always_named h (ids n) suite f
  have hsent := always_of_job htask hp hj hw
  cases sent with
  | none => exact ⟨rfl, rfl⟩
  | some r => exact hsent r rfl

/-- Results that bear the right names one by one do so as a row. -/
theorem names_of_row {s : Suite} {rs : List FixtureResult} (hlen : rs.length = s.fixtures.length)
    (hrow : ∀ (k : Nat) (f : Fixture), s.fixtures[k]? = some f →
      ∃ r : FixtureResult, rs[k]? = some r ∧ r.suite = s.name ∧ r.identifier = f.identifier) :
    rs.map (fun r => (r.suite, r.identifier)) = s.fixtures.map fun f => (s.name, f.identifier) := by
  refine List.ext_getElem? fun k => ?_
  rw [List.getElem?_map, List.getElem?_map]
  cases hf : s.fixtures[k]? with
  | none =>
    rw [List.getElem?_eq_none_iff, ← hlen, ← List.getElem?_eq_none_iff] at hf
    rw [hf]
    rfl
  | some f =>
    obtain ⟨r, hr, hsuite, hid⟩ := hrow k f hf
    rw [hr]
    exact congrArg some (Prod.ext hsuite hid)

/-- With a toolchain the report tells a fixture whose task ended without a result from others. -/
theorem isAborted_of_job {host : Host} {c : Config}
    (hp : Reachable ((ofConfig host c).pool ids suites m) p) {n : Nat} {seat : Seat}
    {suite : String} {f : Fixture} (hj : (jobs suites)[n]? = some ⟨seat, suite, f⟩)
    {sent : Option FixtureResult} (hw : p.workers[n]? = some ⟨seat, .ended sent⟩) :
    (sent.getD (aborted suite f)).outcome.IsAborted ↔ sent = none := by
  have htask : ((ofConfig host c).task ids n ⟨seat, suite, f⟩).Always fun r =>
      ¬ r.outcome.IsAborted := always_not_aborted host c (ids n) suite f
  have hsent := always_of_job htask hp hj hw
  cases sent with
  | none => exact iff_of_true ⟨_, List.mem_singleton_self _⟩ rfl
  | some r => exact iff_of_false (hsent r rfl) (Option.some_ne_none r)

/-- Under every interleaving of the workers and the collector, whichever workers are cut off:

* every result on its way has a place on the board that is still empty, every place that has been
  filled keeps its result, and the counter of a suite is the number of its empty places;
* the run can still come to its end, and what a run returns is the report at such an end, with as
  many jobs as there may be permits and under whatever schedule;
* at the end the report has the suites as they were found, each with one result for each of its
  fixtures in their order, and the result at a place is the one that the only task of the fixture
  there has sent, or the aborted one if that task ended without sending. -/
theorem report_of_interleaving (h : Harness) (ids : Nat → String) (suites : List Suite)
    (m : Machine) {p : Pool Machine FixtureResult} (hp : Reachable (h.pool ids suites m) p) :
    (p.board.sizes = suites.map (·.size) ∧ p.board.Counted) ∧
    (∀ seat r, (seat, r) ∈ p.channel → p.board.slot? seat = some none ∧
      ∃ left, p.board.remaining[seat.suite]? = some (left + 1)) ∧
    (∀ q, Reachable p q → ∀ seat r,
      p.board.slot? seat = some (some r) → q.board.slot? seat = some (some r)) ∧
    (∃ q, Reachable p q ∧ q.finished = true) ∧
    (h.config.jobs ≤ permitLimit → ∀ schedule, ∃ q, Reachable (h.pool ids suites m) q ∧
      q.finished = true ∧ h.run ids schedule suites m = some (report suites q.board, q.shared)) ∧
    (p.finished = true →
      (report suites p.board).suites.map (·.name) = suites.map (·.name) ∧
      ∀ i s, suites[i]? = some s → ∃ rs,
        (report suites p.board).suites[i]? = some ⟨s.name, rs⟩ ∧
        rs.map (fun r => (r.suite, r.identifier)) =
          s.fixtures.map (fun f => (s.name, f.identifier)) ∧
        ∀ k f, s.fixtures[k]? = some f → ∃ (n : Nat) (sent : Option FixtureResult),
          (jobs suites)[n]? = some ⟨⟨i, k⟩, s.name, f⟩ ∧
          p.workers[n]? = some ⟨⟨i, k⟩, .ended sent⟩ ∧
          (∀ n' w, p.workers[n']? = some w → w.seat = ⟨i, k⟩ → n' = n) ∧
          (∀ r, sent = some r → (h.task ids n ⟨⟨i, k⟩, s.name, f⟩).Yields r) ∧
          rs[k]? = some (sent.getD (aborted s.name f)) ∧
          (∀ host c, h = ofConfig host c →
            ((sent.getD (aborted s.name f)).outcome.IsAborted ↔ sent = none))) := by
  have hd := delivery_of_reachable hp
  refine ⟨⟨hd.shape, hd.counted⟩, fun seat r hm => ?_, fun q hq seat r hs => ?_,
    ⟨_, drain_of_reachable hp⟩, exists_run, fun hfin => ?_⟩
  · have hopen := hd.awaited _ hm
    exact ⟨hopen, hd.counted.pos hopen⟩
  · exact hd.slot_stays (nodup_seats suites) (fun _ => fits_of_mem_jobs) hq hs
  · refine ⟨names_report hp, fun i s hs => ?_⟩
    obtain ⟨rs, hrs, hlen, hrow⟩ := rows_of_finished hp hfin hs
    refine ⟨rs, hrs, ?_, fun k f hf => ?_⟩
    · refine names_of_row hlen fun k f hf => ?_
      obtain ⟨n, sent, hj, hw, hr⟩ := hrow k f hf
      exact ⟨_, hr, named_of_job hp hj hw⟩
    · obtain ⟨n, sent, hj, hw, hr⟩ := hrow k f hf
      refine ⟨n, sent, hj, hw, fun n' w hw' hseat => ?_, ?_, hr, ?_⟩
      · -- seats of workers are those of jobs, and no two jobs share one
        obtain ⟨j', hj', hs'⟩ := job_of_worker hp hw'
        have hseats : j'.seat = (⟨⟨i, k⟩, s.name, f⟩ : Job).seat := hs'.symm.trans hseat
        exact number_unique hj' hj hseats
      · exact always_of_job (Task.always_yields _) hp hj hw
      · rintro host c rfl
        exact isAborted_of_job hp hj hw

end

namespace CutOff

/-- A host without programs. -/
def host : Host := ⟨[], .ofString "/tmp", [], fun fs _ _ => ⟨[], [], .ok none, fs, []⟩⟩

/-- A harness that cannot make a scratch directory, for none has a zero byte in its name. -/
def harness : Harness :=
  .ofConfig host { root := .ofString "v", jobs := 1, scratchDir := some ⟨[0]⟩ }

def suites : List Suite :=
  [⟨"s", [⟨.ofString "v/s/001-a"⟩, ⟨.ofString "v/s/002-b"⟩]⟩, ⟨"e", []⟩,
    ⟨"s", [⟨.ofString "v/s/001-a"⟩]⟩]

/-- The second worker is cut off, and the last is done before the first. -/
def schedule : List Pool.Event :=
  [.ask 0, .ask 1, .ask 2, .die 1, .advance 0, .finish 0, .advance 2, .finish 2, .receive, .receive]

/-- The pool at the end. -/
def pool : Pool Machine FixtureResult :=
  (harness.pool Scratch.idOf suites ⟨.empty, [], []⟩).play schedule

end CutOff

/-- The fixture of the worker that is cut off is reported as aborted, and the two suites of one name
keep apart; one job is few enough for a run. -/
theorem report_of_cut_off_worker :
    CutOff.pool.finished = true ∧
    (∃ r m', CutOff.harness.run Scratch.idOf CutOff.schedule CutOff.suites ⟨.empty, [], []⟩ =
      some (r, m')) ∧
    ∃ rs, (report CutOff.suites CutOff.pool.board).suites[0]? = some ⟨"s", rs⟩ ∧
      rs.map (fun r => (r.suite, r.identifier)) = [("s", "001-a"), ("s", "002-b")] ∧
      rs[1]? = some (aborted "s" ⟨.ofString "v/s/002-b"⟩) := by
  have hfin : CutOff.pool.finished = true := rfl
  obtain ⟨-, -, -, -, hruns, hend⟩ := report_of_interleaving CutOff.harness Scratch.idOf
    CutOff.suites ⟨.empty, [], []⟩ (Pool.reachable_play _ CutOff.schedule)
  obtain ⟨q, -, -, hrun⟩ := hruns (by decide) CutOff.schedule
  obtain ⟨-, hrows⟩ := hend hfin
  obtain ⟨rs, hrs, hnames, hplaces⟩ := hrows 0 _ rfl
  obtain ⟨n, sent, -, hw, honly, -, hr, -⟩ := hplaces 1 _ rfl
  refine ⟨hfin, ⟨_, _, hrun⟩, rs, hrs, hnames, ?_⟩
  have hdead : CutOff.pool.workers[1]? = some ⟨⟨0, 1⟩, .ended none⟩ := rfl
  obtain rfl : 1 = n := honly 1 _ hdead rfl
  obtain rfl : none = sent := by cases hdead.symm.trans hw; rfl
  exact hr

end Assay.Harness
