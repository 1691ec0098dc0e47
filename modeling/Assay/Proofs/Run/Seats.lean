import Assay.Proofs.Pool.Delivery
import Assay.Proofs.Pool.Permits
import Assay.Run.Basic

/-!
# Run — a seat for each fixture

The jobs of some suites are their fixtures, each once, in order (`mem_jobs`, `nodup_seats`). So the
pool of a run starts with one worker for each fixture and one empty slot for each worker
(`delivery_pool`), and a report is read off a board row by row (`getElem?_report`).
-/

namespace Assay.Harness

/-! ### The jobs of some suites -/

/-- There is a job for each fixture at its seat, and no other. -/
theorem mem_jobs {suites : List Suite} {j : Job} :
    j ∈ jobs suites ↔ ∃ s, suites[j.seat.suite]? = some s ∧ j.suite = s.name ∧
      s.fixtures[j.seat.fixture]? = some j.fixture := by
  simp only [jobs, List.mem_flatMap, List.mem_map, List.mem_zipIdx_iff_getElem?]
  constructor
  · rintro ⟨⟨s, i⟩, hs, ⟨f, k⟩, hf, rfl⟩
    exact ⟨s, hs, rfl, hf⟩
  · rintro ⟨s, hs, hn, hf⟩
    obtain ⟨⟨i, k⟩, n, f⟩ := j
    obtain rfl : n = s.name := hn
    exact ⟨(s, i), hs, (f, k), hf, rfl⟩

/-- Numbers that count the items of a list are different. -/
theorem nodup_zipIdx_snd {α : Type} (l : List α) : (l.zipIdx.map (·.2)).Nodup := by
  rw [List.zipIdx_map_snd]
  exact List.nodup_range'

/-- No two jobs have the same seat. -/
theorem nodup_seats (suites : List Suite) : ((jobs suites).map (·.seat)).Nodup := by
  rw [jobs, List.map_flatMap, List.nodup_flatMap]
  refine ⟨fun s _ => ?_, ?_⟩
  · rw [List.map_map]
    have h := nodup_zipIdx_snd s.1.fixtures
    refine List.Nodup.of_map Seat.fixture ?_
    rwa [List.map_map]
  · have h := List.pairwise_map.1 (nodup_zipIdx_snd suites)
    refine h.imp fun hne => ?_
    refine List.disjoint_left.2 fun x hx hy => ?_
    simp only [List.map_map, List.mem_map] at hx hy
    obtain ⟨_, -, rfl⟩ := hx
    obtain ⟨_, -, e⟩ := hy
    exact hne (congrArg Seat.suite e).symm

/-- Every job has a slot. -/
theorem fits_of_mem_jobs {suites : List Suite} {s : Seat}
    (h : s ∈ (jobs suites).map (·.seat)) : Board.Fits (suites.map (·.size)) s := by
  obtain ⟨j, hj, rfl⟩ := List.mem_map.1 h
  obtain ⟨s, hs, -, hf⟩ := mem_jobs.1 hj
  exact ⟨s.size, by rw [List.getElem?_map, hs]; rfl, (List.getElem?_eq_some_iff.1 hf).1⟩

/-- There are as many jobs as fixtures. -/
theorem length_jobs (suites : List Suite) :
    (jobs suites).length = (suites.map (·.size)).sum := by
  rw [jobs, List.length_flatMap, ← List.zipIdx_map_fst 0 suites, List.map_map, List.zipIdx_map_fst]
  refine congrArg List.sum (List.map_congr_left fun s _ => ?_)
  rw [List.length_map, List.length_zipIdx]
  rfl

/-! ### The pool of a run -/

variable (h : Harness) (ids : Nat → String) (suites : List Suite) (m : Machine)

theorem getElem?_pool_workers (n : Nat) :
    (h.pool ids suites m).workers[n]? =
      ((jobs suites)[n]?).map fun j => ⟨j.seat, .spawned (h.task ids n j)⟩ := by
  rw [pool, List.getElem?_map, List.getElem?_zipIdx, Option.map_map]
  cases (jobs suites)[n]? <;> simp

theorem length_workers_pool : (h.pool ids suites m).workers.length = (jobs suites).length := by
  rw [pool, List.length_map, List.length_zipIdx]

theorem spawned_pool : ∀ w ∈ (h.pool ids suites m).workers, ∃ t, w.phase = .spawned t := by
  intro w hw
  obtain ⟨j, -, rfl⟩ := List.mem_map.1 hw
  exact ⟨_, rfl⟩

/-- In the pool of a run all seats are open. -/
theorem endings_pool :
    (h.pool ids suites m).endings = (jobs suites).map fun j => (j.seat, none) := by
  rw [Pool.endings, pool, List.map_map]
  refine Eq.trans ?_ (congrArg _ (List.zipIdx_map_fst 0 (jobs suites)))
  rw [List.map_map]
  rfl

/-- At the start nothing has been sent and every slot is empty. -/
theorem delivery_pool : Pool.Delivery ((jobs suites).map (·.seat)) (suites.map (·.size))
    (h.pool ids suites m) where
  seated := by rw [endings_pool, List.map_map]; rfl
  shape := Board.sizes_ofSizes _
  counted := Board.counted_ofSizes _
  once := List.nodup_nil
  awaited := fun _ hm => nomatch hm
  sent s r := by
    rw [endings_pool]
    constructor
    · intro hm
      obtain ⟨_, -, e⟩ := List.mem_map.1 hm
      cases e
    · rintro (hm | hs)
      · cases hm
      · cases Board.slot?_ofSizes hs

/-- At the start nobody has a permit and nobody waits for one. -/
theorem permits_pool : Pool.Permits (max h.config.jobs 1) (h.pool ids suites m) where
  account := by
    have hheld : (h.pool ids suites m).held = 0 := by
      refine List.sum_eq_zero_iff_forall_eq_nat.2 (List.forall_mem_map.2 fun w hw => ?_)
      obtain ⟨j, -, rfl⟩ := List.mem_map.1 hw
      rfl
    rw [hheld]
    rfl
  queued n := by
    refine iff_of_false List.not_mem_nil fun ⟨w, hw, hwait⟩ => ?_
    rw [getElem?_pool_workers] at hw
    obtain ⟨j, -, rfl⟩ := Option.map_eq_some_iff.1 hw
    exact hwait
  once := List.nodup_nil
  busy := fun h => absurd rfl h

/-! ### The report of a board -/

/-- Row by row a report has the results of a board, and the fixtures without one aborted. -/
theorem getElem?_report {suites : List Suite} {board : Board FixtureResult} {i : Nat} {s : Suite}
    (hs : suites[i]? = some s) {row : List (Option FixtureResult)}
    (hrow : board.slots[i]? = some row) :
    (report suites board).suites[i]? =
      some ⟨s.name, (s.fixtures.zip row).map fun f => f.2.getD (aborted s.name f.1)⟩ := by
  have hz : (suites.zip board.slots)[i]? = some (s, row) :=
    List.getElem?_zip_eq_some.2 ⟨hs, hrow⟩
  rw [report, List.getElem?_map, hz]
  rfl

end Assay.Harness
