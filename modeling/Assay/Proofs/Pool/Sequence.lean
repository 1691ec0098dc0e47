import Assay.Proofs.Pool.Order

/-!
# Pool — one after another

A pool with a single permit in which nobody is cut off does what its tasks do one after another, in
the order in which the workers ask: each begins in the state that the one before it has left, and
sends what it comes to from there (`sequential_of_trace`). Nothing is assumed of the tasks.
-/

namespace Assay.Pool

variable {σ ρ : Type} {tasks : List (Task σ ρ)} {start p q : Pool σ ρ} {es : List Event} {e : Event}
  {as is : List Nat} {i : Nat} {m s : σ}

/-- The state that some tasks leave, each run to its end before the next begins. -/
def after (tasks : List (Task σ ρ)) (m : σ) (is : List Nat) : σ :=
  is.foldl (fun s i => (tasks[i]?).elim s fun t => (t.run s).2) m

/-- One task more is run on what the others have left. -/
theorem after_snoc (tasks : List (Task σ ρ)) (m : σ) (is : List Nat) {t : Task σ ρ}
    (ht : tasks[i]? = some t) :
    after tasks m (is ++ [i]) = (t.run (after tasks m is)).2 := by
  simp [after, ht]

/-- Whether some workers have ended with what their tasks come to one after another. -/
def Completed (tasks : List (Task σ ρ)) (p : Pool σ ρ) : σ → List Nat → Prop
  | _, []      => True
  | s, i :: is => ∃ t seat, tasks[i]? = some t ∧
    p.workers[i]? = some ⟨seat, .ended (t.run s).1⟩ ∧ Completed tasks p (t.run s).2 is

/-- A worker that ended as its task does behind the others completes one task more. -/
theorem completed_snoc {t : Task σ ρ} {seat : Seat} (h : p.Completed tasks m is)
    (ht : tasks[i]? = some t)
    (hw : p.workers[i]? = some ⟨seat, .ended (t.run (after tasks m is)).1⟩) :
    p.Completed tasks m (is ++ [i]) := by
  induction is generalizing m with
  | nil => exact ⟨t, seat, ht, hw, trivial⟩
  | cons k is ih =>
    obtain ⟨u, seat', hu, hw', hrest⟩ := h
    refine ⟨u, seat', hu, hw', ih hrest ?_⟩
    simpa [after, hu] using hw

/-- Who has ended stays as it is. -/
theorem Move.ended (hm : Move p e q) {seat : Seat} {sent : Option ρ}
    (h : p.workers[i]? = some ⟨seat, .ended sent⟩) :
    q.workers[i]? = some ⟨seat, .ended sent⟩ := by
  have hset : ∀ {k : Nat} {s : Seat} {f : Phase σ ρ} (g : Phase σ ρ),
      p.workers[k]? = some ⟨s, f⟩ → f.effort ≠ 0 →
      (p.setPhase k g).workers[i]? = some ⟨seat, .ended sent⟩ := fun g hk hf =>
    (getElem?_setPhase_ne (ne_of_effort_ne hk h hf) g).trans h
  cases hm with
  | queue hw | start hw => exact hset _ hw (Nat.succ_ne_zero 1)
  | advance hw | dieWaiting hw => exact hset _ hw Nat.one_ne_zero
  | dieSpawned hw => exact hset _ hw (Nat.succ_ne_zero 1)
  | send hw _ => exact getElem?_release (hset (.ended _) hw Nat.one_ne_zero) id
  | fall hw | dieRunning hw => exact getElem?_release (hset (.ended _) hw Nat.one_ne_zero) id
  | receive => exact h

/-- What has been completed stays so. -/
theorem Completed.move (h : p.Completed tasks s is) (hm : Move p e q) :
    q.Completed tasks s is := by
  induction is generalizing s with
  | nil => trivial
  | cons i is ih =>
    obtain ⟨t, seat, ht, hw, hrest⟩ := h
    exact ⟨t, seat, ht, hm.ended hw, ih hrest⟩

/-- Whether every worker that is still to run has the task of its number. -/
def Assigned (tasks : List (Task σ ρ)) (p : Pool σ ρ) : Prop :=
  ∀ (i : Nat) seat t, p.workers[i]? = some ⟨seat, .spawned t⟩ ∨
    p.workers[i]? = some ⟨seat, .waiting t⟩ → tasks[i]? = some t

/-- A worker keeps the task that it was given. -/
theorem Assigned.move (h : p.Assigned tasks) (hm : Move p e q) : q.Assigned tasks := by
  rintro i seat t (hi | hi)
  · obtain ⟨⟨seat', f⟩, hv, -, hn⟩ := hm.worker hi
    cases hn
    exact h i _ t (.inl hv)
  · obtain ⟨⟨seat', f⟩, hv, -, hn⟩ := hm.worker hi
    cases hn with
    | stay => exact h i _ t (.inr hv)
    | queue => exact h i _ t (.inl hv)

/-- Whether a pool is where the tasks of the workers `as` come to one after another: some have been
completed, and then one runs and the others wait, or nobody is left. -/
inductive Sequential (tasks : List (Task σ ρ)) (m : σ) (as : List Nat) (p : Pool σ ρ) : Prop
  | idle (hq : p.queue = []) (hfree : p.free = 1) (hs : p.shared = after tasks m as)
      (hc : p.Completed tasks m as)
  | busy {is : List Nat} {i : Nat} {seat : Seat} {t t' : Task σ ρ} (has : as = is ++ i :: p.queue)
      (ht : tasks[i]? = some t) (hw : p.workers[i]? = some ⟨seat, .running t'⟩)
      (hrun : t'.run p.shared = t.run (after tasks m is)) (hc : p.Completed tasks m is)

variable {seat : Seat} {t' : Task σ ρ}

/-- When the worker that runs is at its end, the next one in the line begins. -/
theorem Sequential.end_release (h : p.Sequential tasks m as) (ha : p.Assigned tasks)
    (hp : Permits 1 p) (hw : p.workers[i]? = some ⟨seat, .running t'⟩) {sent : Option ρ}
    (hsent : t'.run p.shared = (sent, p.shared)) (hshared : q.shared = p.shared)
    (hfree : q.free = p.free) (hqueue : q.queue = p.queue)
    (hworkers : q.workers = (p.setPhase i (.ended sent)).workers)
    (hkeep : ∀ {s : σ} {is : List Nat}, p.Completed tasks s is → q.release.Completed tasks s is) :
    q.release.Sequential tasks m as := by
  have hnone : p.free = 0 := free_eq_zero hp ⟨seat, t', hw⟩
  cases h with
  | idle _ hfree' => omega
  | @busy is j seat' t u has ht hw' hrun hc =>
    obtain rfl := runs_unique hp ⟨seat, t', hw⟩ ⟨seat', u, hw'⟩
    cases hw.symm.trans hw'
    rw [hsent] at hrun
    have hshared' : q.release.shared = after tasks m (is ++ [i]) := by
      rw [shared_release, hshared, after_snoc tasks m is ht, ← hrun]
    have hend : q.workers[i]? = some ⟨seat, .ended (t.run (after tasks m is)).1⟩ := by
      rw [hworkers, getElem?_setPhase_self hw, ← hrun]
    have hc' : q.release.Completed tasks m (is ++ [i]) :=
      completed_snoc (hkeep hc) ht (getElem?_release hend id)
    cases hq : p.queue with
    | nil =>
      refine .idle ?_ ?_ ?_ ?_
      · rw [queue_release, hqueue, hq]
        rfl
      · rw [release, hqueue, hq]
        exact congrArg (· + 1) (hfree.trans hnone)
      · rw [has, hq, hshared']
      · rw [has, hq]
        exact hc'
    | cons k r =>
      obtain ⟨s, v, hk⟩ := isWaiting_of_waits ((hp.queued k).1 (hq ▸ List.mem_cons_self))
      have hne : i ≠ k := by
        rintro rfl
        cases hw.symm.trans hk
      have hk' : q.workers[k]? = some ⟨s, .waiting v⟩ := by
        rw [hworkers, getElem?_setPhase_ne hne, hk]
      refine .busy (i := k) ?_ (ha k s v (.inr hk))
        (getElem?_release_head (hqueue.trans hq) hk') ?_ hc'
      · rw [has, queue_release, hqueue, hq, List.append_assoc]
        rfl
      · rw [hshared']

/-- Under one permit an event leaves the tasks one after another. -/
theorem Sequential.move (h : p.Sequential tasks m as) (ha : p.Assigned tasks) (hp : Permits 1 p)
    (he : ¬ e.Cuts) (hm : Move p e q) : q.Sequential tasks m (as ++ e.asker) := by
  have hkeep : ∀ {s : σ} {is : List Nat}, p.Completed tasks s is → q.Completed tasks s is :=
    fun hc => hc.move hm
  have hnil : ∀ {as : List Nat}, as = as ++ [] := fun {as} => (List.append_nil as).symm
  cases hm with
  | @queue k s t hw hf =>
    cases h with
    | idle _ hfree => omega
    | busy has ht hw' hrun hc =>
      refine .busy ?_ ht ((getElem?_setPhase_ne ?_ _).trans hw') hrun (hkeep hc)
      · rw [has, List.append_assoc]
        rfl
      · rintro rfl
        cases hw.symm.trans hw'
  | start hw hf =>
    cases h with
    | busy _ _ hw' =>
      have hfree := free_eq_zero hp ⟨_, _, hw'⟩
      omega
    | idle hq _ hs hc =>
      refine .busy ?_ (ha _ _ _ (.inl hw)) (getElem?_setPhase_self hw _) ?_ (hkeep hc)
      · exact congrArg (as ++ _ :: ·) hq.symm
      · exact congrArg _ hs
  | advance hw =>
    cases h with
    | idle _ hfree =>
      have hzero := free_eq_zero hp ⟨_, _, hw⟩
      omega
    | busy has ht hw' hrun hc =>
      obtain rfl := runs_unique hp ⟨_, _, hw⟩ ⟨_, _, hw'⟩
      cases hw.symm.trans hw'
      exact .busy (hnil ▸ has) ht (getElem?_setPhase_self hw _) hrun (hkeep hc)
  | send hw room =>
    exact hnil ▸ h.end_release ha hp hw rfl rfl rfl rfl rfl hkeep
  | fall hw => exact hnil ▸ h.end_release ha hp hw rfl rfl rfl rfl rfl hkeep
  | dieSpawned | dieWaiting | dieRunning => exact absurd trivial he
  | receive hc =>
    cases h with
    | idle hq hfree hs hc => exact .idle hq hfree (hnil ▸ hs) (hnil ▸ hkeep hc)
    | busy has ht hw hrun hc => exact .busy (hnil ▸ has) ht hw hrun (hkeep hc)

/-- In every reachable pool the workers have the tasks that they were given. -/
theorem Assigned.reachable (h : start.Assigned tasks) (hr : Reachable start p) :
    p.Assigned tasks := by
  induction hr with
  | refl => exact h
  | more _ hs ih => exact ih.move (move_of_apply hs)

/-- With a single permit and nobody cut off, a pool does what its tasks do one after another, in the
order in which its workers ask. -/
theorem sequential_of_trace (h : start.Assigned tasks) (hp : Permits 1 start)
    (hfree : start.free = 1) (ht : Trace start es p) (hcut : ∀ e ∈ es, ¬ e.Cuts) :
    p.Sequential tasks start.shared (asked es) := by
  induction ht with
  | nil =>
    refine .idle ?_ hfree rfl trivial
    by_contra hne
    have := hp.busy hne
    omega
  | snoc ht hm ih =>
    obtain ⟨hes, he⟩ := List.forall_mem_append.1 hcut
    have hr := ht.reachable
    rw [asked_snoc]
    exact (ih hes).move (h.reachable hr) (hp.reachable hr) (he _ (List.mem_singleton_self _)) hm

/-- At the end all that have asked are completed. -/
theorem Sequential.finished (h : p.Sequential tasks m as) (hfin : p.finished = true) :
    p.shared = after tasks m as ∧ p.Completed tasks m as := by
  cases h with
  | idle _ _ hs hc => exact ⟨hs, hc⟩
  | busy _ _ hw =>
    obtain ⟨sent, hsent⟩ := (finished_iff.1 hfin).2 _ (List.mem_of_getElem? hw)
    cases hsent

end Assay.Pool
