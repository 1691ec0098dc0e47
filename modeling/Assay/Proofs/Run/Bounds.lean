import Assay.Proofs.Run.Remains

/-!
# Run — how much of it at once

In every pool that a run can come to, whoever is cut off on the way: the permits that are held and
those that are free are as many as there are jobs, a worker has one from when it leaves the line
until it has ended, whoever runs has room for its result, and as long as the run is not finished
something can happen that cuts nobody off (`within_bounds`). There are no more scratch directories
than permits as long as programs write nothing but what they are told to write and every removal
succeeds; one that cannot be removed stays, and the next one is made beside it
(`two_directories_with_one_job`).
-/

namespace Assay

open Pool (History asked Delivery Permits Move)

namespace Pool

variable {σ ρ : Type} {p : Pool σ ρ} {es : List Event} {n : Nat}

/-- A pool that is not finished is not stuck: somebody can take a step or send, or somebody can ask,
or there is a result to take. -/
theorem exists_move {seats : List Seat} {sizes : List Nat} (hd : seats.Nodup)
    (hf : ∀ s ∈ seats, Board.Fits sizes s) (h : Delivery seats sizes p) (hp : Permits (n + 1) p)
    (hfin : p.finished = false) : ∃ e q, ¬ e.Cuts ∧ Move p e q := by
  by_cases hrun : ∃ (i : Nat) (s : Seat) (t : Task σ ρ), p.workers[i]? = some ⟨s, .running t⟩
  · obtain ⟨i, s, t, hw⟩ := hrun
    cases t with
    | step effect next => exact ⟨_, _, id, .advance hw⟩
    | done r => exact ⟨_, _, id, .send hw (h.room hd hf hw)⟩
    | dead => exact ⟨_, _, id, .fall hw⟩
  by_cases hask : ∃ (i : Nat) (s : Seat) (t : Task σ ρ), p.workers[i]? = some ⟨s, .spawned t⟩
  · obtain ⟨i, s, t, hw⟩ := hask
    cases hfree : p.free with
    | zero => exact ⟨_, _, id, .queue hw hfree⟩
    | succ k => exact ⟨_, _, id, .start hw hfree⟩
  have hended := effort_eq_zero.1 (effort_eq_zero_of_idle hp
    (fun i s t hw => hrun ⟨i, s, t, hw⟩) fun i s t hw => hask ⟨i, s, t, hw⟩)
  cases hc : p.channel with
  | nil => cases hfin.symm.trans (finished_iff.2 ⟨hc, hended⟩)
  | cons x rest => exact ⟨_, _, id, .receive hc⟩

end Pool

namespace Harness

/-- Whether a place is that of a scratch directory: at the path of one, where nothing was at the
start, and not of the base or of a directory above it. -/
structure IsScratchAt (host : Host) (c : Config) (ids : Nat → String) (suites : List Suite)
    (fs₀ fs : FileSystem) (l : Loc) : Prop where
  path : ∃ n < (jobs suites).length,
    fs.lookup false (scratchPath host c ids suites n) = .ok (l, .dir)
  new : fs₀.get? l = none
  below : ∀ q, (c.scratchBase host.tempDir).Above q → fs.openDir q ≠ .ok l

/-- Each scratch directory is held by somebody. -/
theorem exists_holder {host : Host} {c : Config} {ids : Nat → String} {suites : List Suite}
    (hids : ∀ n, ∃ k, ids n = Scratch.idOf k) {fs₀ ground fs : FileSystem} {held : Nat → Bool}
    {b l : Loc}
    (h : Lodging fs₀ (c.scratchBase host.tempDir) (scratchName ids suites) held ground b fs)
    (hl : IsScratchAt host c ids suites fs₀ fs l) :
    ∃ i, held i = true ∧ scratchName ids suites i :: b = l := by
  obtain ⟨⟨n, hn, hlookup⟩, hnew, hbelow⟩ := hl
  obtain hold | ⟨-, q, hq, hopen⟩ | ⟨i, hi, hsuffix⟩ := h.entry (FileSystem.get?_of_lookup hlookup)
  · cases hnew.symm.trans hold
  · exact absurd hopen (hbelow q hq)
  · -- both are right in the place that the base leads to
    have hplace := FileSystem.lookup_below (h.reaches hi) (isSegment_scratchName hids hn) hlookup
    refine ⟨i, hi, hsuffix.eq_of_length ?_⟩
    rw [hplace, List.length_cons, List.length_cons]

theorem exists_holders {host : Host} {c : Config} {ids : Nat → String} {suites : List Suite}
    (hids : ∀ n, ∃ k, ids n = Scratch.idOf k) {fs₀ ground fs : FileSystem} {held : Nat → Bool}
    {b : Loc} {ls : List Loc}
    (h : Lodging fs₀ (c.scratchBase host.tempDir) (scratchName ids suites) held ground b fs)
    (hls : ∀ l ∈ ls, IsScratchAt host c ids suites fs₀ fs l) :
    ∃ is : List Nat, ls = is.map (fun i => scratchName ids suites i :: b) ∧
      ∀ i ∈ is, held i = true := by
  induction ls with
  | nil => exact ⟨[], rfl, nofun⟩
  | cons l ls ih =>
    obtain ⟨hl, hrest⟩ := List.forall_mem_cons.1 hls
    obtain ⟨i, hi, rfl⟩ := exists_holder hids h hl
    obtain ⟨is, rfl, his⟩ := ih hrest
    exact ⟨i :: is, rfl, List.forall_mem_cons.2 ⟨hi, his⟩⟩

/-- In every pool that a run can come to, whoever is cut off and unwinds: the permits are accounted
for, a worker has one from when it leaves the line until it has ended, no more fixtures are under
way than there are permits, whoever runs has room for its result, and something can happen unless
all is done. If programs write nothing but what they are told to write and no removal is refused,
there are no more scratch directories than permits. -/
theorem within_bounds (h : Harness) (ids : Nat → String) (suites : List Suite) (m : Machine)
    {unwind : Nat → Task Machine FixtureResult} {es : List Pool.Event}
    {p : Pool Machine FixtureResult} (hh : History unwind (h.pool ids suites m) es p) :
    p.held + p.free = max h.config.jobs 1 ∧
    (∀ i, p.Runs i ↔ i ∈ asked es ∧ i ∉ p.queue ∧ ¬ p.HasEnded i) ∧
    (∀ is : List Nat, is.Nodup → (∀ i ∈ is, p.Runs i) → is.length ≤ max h.config.jobs 1) ∧
    (p.capacity = max (suites.map (·.size)).sum 1 ∧
      ∀ i, p.Runs i → p.channel.length < p.capacity) ∧
    (p.finished = false → ∃ e q, ¬ e.Cuts ∧ p.apply e = some q) ∧
    ∀ host c, h = ofConfig host c → unwind = unwinding host c ids suites → host.WritesOutputs →
      (∀ n, ∃ k, ids n = Scratch.idOf k) → (∀ r ∈ m.refusals, r = none) →
      ∀ ls : List Loc, ls.Nodup →
        (∀ l ∈ ls, IsScratchAt host c ids suites m.files p.shared.files l) →
        ls.length ≤ max h.config.jobs 1 := by
  have hstart := permits_pool h ids suites m
  have hp := hstart.history hh
  have hd := (delivery_pool h ids suites m).history (nodup_seats suites)
    (fun _ => fits_of_mem_jobs) hh
  have horder := (Pool.orderly_of_spawned (spawned_pool h ids suites m) rfl).history hstart hh
  have hbusy : ∀ is : List Nat, is.Nodup → (∀ i ∈ is, p.Runs i) →
      is.length ≤ max h.config.jobs 1 := fun is hnodup his =>
    Nat.le_trans (Pool.length_le_held hnodup his) (hp.account ▸ Nat.le_add_left _ _)
  refine ⟨(Nat.add_comm _ _).trans hp.account, fun i => horder.runs_iff hp, hbusy, ⟨?_, ?_⟩, ?_, ?_⟩
  · rw [Pool.capacity, hh.length_workers, length_workers_pool, length_jobs]
  · rintro i ⟨s, t, hw⟩
    exact hd.room (nodup_seats suites) (fun _ => fits_of_mem_jobs) hw
  · intro hfin
    obtain ⟨n, hn⟩ : ∃ n, max h.config.jobs 1 = n + 1 :=
      Nat.exists_eq_add_one.2 (Nat.lt_of_lt_of_le Nat.one_pos (Nat.le_max_right _ 1))
    obtain ⟨e, q, hcut, hm⟩ := Pool.exists_move (nodup_seats suites)
      (fun _ => fits_of_mem_jobs) hd (hn ▸ hp) hfin
    exact ⟨e, q, hcut, Pool.apply_of_move hm⟩
  · rintro host c rfl rfl hw hids hr ls hnodup hls
    obtain ⟨held, hkept⟩ := kept_of_history hw c hids hr hh
    obtain ⟨-, ground, b, hlodging⟩ := hkept.state
    obtain ⟨is, rfl, his⟩ := exists_holders hids hlodging hls
    rw [List.length_map]
    exact hbusy is (List.Nodup.of_map _ hnodup) fun i hi =>
      (hkept.runs_or_cutOff (his i hi)).resolve_right id

/-- Two workers at work with two permits. -/
theorem within_bounds_abreast :
    let p := ((ofConfig Copying.host (Abreast.config 2)).pool Scratch.idOf Abreast.suites
      Abreast.machine).play Abreast.schedule
    p.held = 2 ∧ p.free = 0 ∧ (∃ e q, ¬ e.Cuts ∧ p.apply e = some q) ∧
      ∀ ls : List Loc, ls.Nodup → (∀ l ∈ ls, IsScratchAt Copying.host (Abreast.config 2)
        Scratch.idOf Abreast.suites Abreast.machine.files p.shared.files l) → ls.length ≤ 2 := by
  have hh : History (unwinding Copying.host (Abreast.config 2) Scratch.idOf Abreast.suites)
      ((ofConfig Copying.host (Abreast.config 2)).pool Scratch.idOf Abreast.suites
        Abreast.machine) Abreast.schedule _ :=
    Pool.history_of_trace (Pool.trace_play (by decide +kernel))
      (by simp [Abreast.schedule, Pool.Event.Cuts])
  obtain ⟨haccount, -, -, -, hmove, hdirs⟩ := within_bounds _ _ _ _ hh
  have hheld : (((ofConfig Copying.host (Abreast.config 2)).pool Scratch.idOf Abreast.suites
      Abreast.machine).play Abreast.schedule).held = 2 := by decide +kernel
  have hjobs : max (ofConfig Copying.host (Abreast.config 2)).config.jobs 1 = 2 := rfl
  exact ⟨hheld, by omega, hmove (by decide +kernel),
    hdirs _ _ rfl rfl Copying.confined.writesOutputs (fun n => ⟨n, rfl⟩) (List.forall_mem_nil _)⟩

namespace Refused

/-- Both attempts of the first worker to remove its directory are refused. -/
def machine : Machine :=
  { Abreast.machine with refusals := List.replicate 2 (some (.os .permissionDenied)) }

def pool : Pool Machine FixtureResult :=
  (ofConfig Copying.host (Abreast.config 1)).pool Scratch.idOf Abreast.suites machine

/-- The first worker runs to its end, and the second makes its directory. -/
def schedule : List Pool.Event :=
  .ask 0 :: List.replicate 9 (.advance 0) ++ [.finish 0, .ask 1, .advance 1]

/-- The places of directories at the paths of the two scratch directories. -/
def places : List Loc :=
  (List.range 2).filterMap fun n =>
    match (pool.play schedule).shared.files.lookup false
        (scratchPath Copying.host (Abreast.config 1) Scratch.idOf Abreast.suites n) with
    | .ok (l, .dir) => some l
    | _             => none

end Refused

/-- With one job there can be two scratch directories at once: one that could not be removed, and
that of the next fixture. -/
theorem two_directories_with_one_job :
    History (unwinding Copying.host (Abreast.config 1) Scratch.idOf Abreast.suites) Refused.pool
        Refused.schedule (Refused.pool.play Refused.schedule) ∧
      Refused.places.length = 2 ∧ Refused.places.Nodup ∧
      ∀ l ∈ Refused.places, Refused.machine.files.get? l = none :=
  ⟨Pool.history_of_trace (Pool.trace_play (by decide +kernel))
    (by simp [Refused.schedule, Pool.Event.Cuts]),
    by decide +kernel, by decide +kernel, by decide +kernel⟩

end Harness

end Assay
