import Assay.Proofs.Pool.Order

/-!
# Pool — cut off in the middle

A worker that is cut off in the middle of its task does not just vanish. It unwinds first, which
gives back what its task held. `History unwind start es p` is `Trace start es p` with this meaning
of `die`: a worker that has taken a step and has not come to the end of its task goes on with
`unwind` instead of the rest of it, keeps its permit until that is over, and ends without a result.

What counts permits and results does not look into tasks, so it holds of histories too
(`Permits.history`, `Delivery.history`, `Orderly.history`).
-/

namespace Assay.Pool

variable {σ ρ : Type} {start p q : Pool σ ρ} {unwind : Nat → Task σ ρ} {es : List Event}
  {as : List Nat} {i j n : Nat} {s : Seat} {t : Task σ ρ}

/-- Whether a worker has begun with its task, after some events, and is not at its end. -/
def Midway (es : List Event) (p : Pool σ ρ) (i : Nat) : Prop :=
  .advance i ∈ es ∧ ∃ s effect next, p.workers[i]? = some ⟨s, .running (.step effect next)⟩

/-- A worker that is in the middle of its task holds a permit. -/
theorem Midway.runs (h : Midway es p i) : p.Runs i := by
  obtain ⟨-, s, effect, next, hw⟩ := h
  exact ⟨s, _, hw⟩

/-- The pools that some events lead to when workers that are cut off in the middle unwind. -/
inductive History (unwind : Nat → Task σ ρ) (start : Pool σ ρ) : List Event → Pool σ ρ → Prop where
  | nil : History unwind start [] start
  | snoc {es : List Event} {p q : Pool σ ρ} {e : Event} (h : History unwind start es p)
      (s : Move p e q) (hout : ∀ i, e = .die i → ¬ Midway es p i) :
      History unwind start (es ++ [e]) q
  | unwind {es : List Event} {p : Pool σ ρ} {i : Nat} (h : History unwind start es p)
      (hmid : Midway es p i) :
      History unwind start (es ++ [.die i]) (p.setPhase i (.running (unwind i)))

/-- Where nobody is cut off, nobody unwinds. -/
theorem history_of_trace (h : Trace start es p) (hcut : ∀ e ∈ es, ¬ e.Cuts) :
    History unwind start es p := by
  induction h with
  | nil => exact .nil
  | snoc _ hm ih =>
    obtain ⟨hes, he⟩ := List.forall_mem_append.1 hcut
    refine (ih hes).snoc hm ?_
    rintro i rfl
    exact absurd trivial (he _ (List.mem_singleton_self _))

/-- Without a cut there is nothing to unwind. -/
theorem History.trace (h : History unwind start es p) (hcut : ∀ e ∈ es, ¬ e.Cuts) :
    Trace start es p := by
  induction h with
  | nil => exact .nil
  | snoc _ hm _ ih => exact (ih (List.forall_mem_append.1 hcut).1).snoc hm
  | unwind => exact absurd trivial (hcut _ List.mem_concat_self)

/-! ### To go on with another task -/

/-- Who waits does not depend on what a running worker goes on with. -/
theorem waits_setPhase_running (hw : p.workers[i]? = some ⟨s, .running t⟩) (t' : Task σ ρ) :
    (p.setPhase i (.running t')).Waits j ↔ p.Waits j := by
  rw [waits_setPhase hw]
  split
  next hj =>
    subst hj
    refine iff_of_false id fun ⟨w, hw', hwait⟩ => ?_
    cases hw.symm.trans hw'
    exact hwait
  next => exact Iff.rfl

/-- A running worker that goes on with something else runs as before, and no other worker starts by
that. -/
theorem runs_setPhase_running (hr : p.Runs i) {t' : Task σ ρ}
    (h : (p.setPhase i (.running t')).Runs j) : p.Runs j := by
  by_cases hj : i = j
  · exact hj ▸ hr
  · obtain ⟨s, t, hw⟩ := h
    exact ⟨s, t, (getElem?_setPhase_ne hj _).symm.trans hw⟩

/-- A running worker keeps its permit whatever it goes on with. -/
theorem Permits.resume (h : Permits n p) (hr : p.Runs i) (t' : Task σ ρ) :
    Permits n (p.setPhase i (.running t')) := by
  obtain ⟨s, t, hw⟩ := hr
  exact h.setPhase hw id id (congrArg (· + 1) h.account)

/-- Nothing is sent or taken by going on with another task. -/
theorem traffic_resume (hr : p.Runs i) (t' : Task σ ρ) :
    Traffic p (p.setPhase i (.running t')) := by
  obtain ⟨s, t, hw⟩ := hr
  exact .quiet (endings_setPhase_of_eq hw rfl) rfl rfl

/-- The queue and the order of the permits do not depend on what runs. -/
theorem Orderly.resume (h : Orderly as p) (hr : p.Runs i) (t' : Task σ ρ) :
    Orderly as (p.setPhase i (.running t')) := by
  obtain ⟨s, t, hw⟩ := hr
  refine ⟨h.once, fun j hj => ?_, fun j s' u hj => ?_, fun j hj => ?_, h.line,
    fun j k hjk hk hj => ?_⟩
  · rw [workers_setPhase, List.length_modify]
    exact h.exist j hj
  · obtain ⟨v, hv, ⟨-, he⟩ | ⟨-, rfl⟩⟩ := getElem?_modify_inv hj
    · cases he
    · exact h.spawned j s' u hv
  · exact h.began j (hj.imp (waits_setPhase_running hw t').1 (runs_setPhase_running ⟨s, t, hw⟩))
  · exact h.fair j k hjk (runs_setPhase_running ⟨s, t, hw⟩ hk) ((waits_setPhase_running hw t').1 hj)

/-! ### What histories keep -/

/-- There are as many workers at the end of a history as at its start. -/
theorem History.length_workers (h : History unwind start es p) :
    p.workers.length = start.workers.length := by
  induction h with
  | nil => rfl
  | snoc _ hm _ ih => exact hm.length_workers.trans ih
  | unwind _ _ ih => exact (List.length_modify ..).trans ih

/-- No permit is lost or doubled in a history. -/
theorem Permits.history (h : Permits n start) (hh : History unwind start es p) : Permits n p := by
  induction hh with
  | nil => exact h
  | snoc _ hm _ ih => exact ih.move hm
  | unwind _ hmid ih => exact ih.resume hmid.runs _

/-- In a history too each slot is filled once, by the worker whose seat it is. -/
theorem Delivery.history {seats : List Seat} {sizes : List Nat} (h : Delivery seats sizes start)
    (hd : seats.Nodup) (hf : ∀ s ∈ seats, Board.Fits sizes s) (hh : History unwind start es p) :
    Delivery seats sizes p := by
  induction hh with
  | nil => exact h
  | snoc _ hm _ ih => exact ih.move hd hf hm
  | unwind _ hmid ih => exact ih.traffic hd hf (traffic_resume hmid.runs _)

/-- In a history too permits are given out in the order in which they were asked for. -/
theorem Orderly.history (h : Orderly [] start) (hp : Permits n start)
    (hh : History unwind start es p) : Orderly (asked es) p := by
  induction hh with
  | nil => exact h
  | snoc hh hm _ ih =>
    rw [asked_snoc]
    exact ih.move (hp.history hh) hm
  | unwind _ hmid ih =>
    rw [asked_snoc]
    exact (List.append_nil (asked _)).symm ▸ ih.resume hmid.runs _

end Assay.Pool
