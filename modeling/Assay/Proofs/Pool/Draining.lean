import Assay.Proofs.Pool.Delivery
import Assay.Proofs.Pool.Permits
import Mathlib.Data.List.Perm.Subperm

/-!
# Pool — played to its end

A pool with a permit at all can always go on until every worker has ended: if nobody runs, nobody
waits, for a permit is free then. Each round of `drain` brings one worker nearer to its end
(`round_effort`), so after two rounds for each worker all have ended, and what is still on its way
can be received (`drain_finished`).
-/

namespace Assay

variable {σ ρ : Type}

/-- Rounds that a worker in a phase still needs at most: one to ask in and one to run in. -/
def Phase.effort : Phase σ ρ → Nat
  | .spawned _              => 2
  | .waiting _ | .running _ => 1
  | .ended _                => 0

namespace Pool

variable {p q r : Pool σ ρ}

/-! ### Schedules -/

theorem Reachable.trans (h : Reachable p q) (h' : Reachable q r) : Reachable p r := by
  induction h' with
  | refl => exact h
  | more _ hs ih => exact .more ih hs

/-- Whatever a schedule says, the pool that it leads to is reachable. -/
theorem reachable_play (p : Pool σ ρ) (schedule : List Event) : Reachable p (p.play schedule) := by
  induction schedule generalizing p with
  | nil => exact .refl
  | cons e es ih =>
    show Reachable p (((p.apply e).getD p).play es)
    cases he : p.apply e with
    | none => exact ih p
    | some q => exact (Reachable.more .refl he).trans (ih q)

/-- Whatever can be reached is come to by some schedule. -/
theorem exists_play_of_reachable (h : Reachable p q) : ∃ events, p.play events = q := by
  induction h with
  | refl => exact ⟨[], rfl⟩
  | @more q' q e h hs ih =>
    obtain ⟨events, rfl⟩ := ih
    refine ⟨events ++ [e], ?_⟩
    rw [play, List.foldl_append]
    show ((p.play events).apply e).getD _ = q
    rw [hs]
    rfl

/-- An event that can happen does. -/
theorem play_cons_of_move {e : Event} (h : Move p e q) (es : List Event) :
    p.play (e :: es) = q.play es := by
  show ((p.apply e).getD p).play es = _
  rw [apply_of_move h]
  rfl

/-! ### The effort that is left -/

def effort (p : Pool σ ρ) : Nat := (p.workers.map (·.phase.effort)).sum

/-- If one worker goes on, the whole effort changes by what its own does. -/
theorem effort_setPhase {i : Nat} {s : Seat} {f : Phase σ ρ} (hw : p.workers[i]? = some ⟨s, f⟩)
    (g : Phase σ ρ) : (p.setPhase i g).effort + f.effort = p.effort + g.effort := by
  rw [effort, setPhase_workers_eq hw]
  exact sum_map_set (fun w => w.phase.effort) hw ⟨s, g⟩

@[simp] theorem effort_release (p : Pool σ ρ) : p.release.effort = p.effort := by
  unfold release
  split
  · rfl
  · refine congrArg List.sum (map_modify_of_eq (fun w => ?_) p.workers _)
    obtain ⟨s, f⟩ := w
    cases f <;> rfl

/-- Events that bring a worker nearer to its end. -/
def Event.Brings : Event → Prop
  | .ask _ | .finish _ => True
  | _                  => False

/-- A worker that changes to a phase with no more effort. -/
theorem effort_setPhase_le {i : Nat} {s : Seat} {f g : Phase σ ρ} (hw : p.workers[i]? = some ⟨s, f⟩)
    (h : g.effort ≤ f.effort) : (p.setPhase i g).effort ≤ p.effort := by
  have := effort_setPhase hw g
  omega

/-- If one worker comes nearer its end, so does the pool. -/
theorem effort_setPhase_lt {i : Nat} {s : Seat} {f g : Phase σ ρ} (hw : p.workers[i]? = some ⟨s, f⟩)
    (h : g.effort < f.effort) : (p.setPhase i g).effort < p.effort := by
  have := effort_setPhase hw g
  omega

/-- An event that brings a worker on brings the pool nearer its end. -/
theorem Move.effort_lt {e : Event} (h : Move p e q) (he : e.Brings) : q.effort < p.effort := by
  cases h with
  | queue hw _ => exact effort_setPhase_lt hw (Nat.lt_succ_self 1)
  | start hw _ => exact effort_setPhase_lt hw (Nat.lt_succ_self 1)
  | send hw _ | fall hw =>
    rw [effort_release]
    exact effort_setPhase_lt hw Nat.one_pos
  | advance | dieSpawned | dieWaiting | dieRunning | receive => exact he.elim

/-- No event leads the pool away from its end. -/
theorem Move.effort_le {e : Event} (h : Move p e q) : q.effort ≤ p.effort := by
  by_cases he : e.Brings
  · exact Nat.le_of_lt (h.effort_lt he)
  cases h with
  | queue | start | send | fall => exact absurd trivial he
  | advance hw => exact effort_setPhase_le hw (Nat.le_refl 1)
  | dieSpawned hw => exact effort_setPhase_le hw (Nat.zero_le _)
  | dieWaiting hw => exact effort_setPhase_le hw (Nat.zero_le _)
  | dieRunning hw =>
    rw [effort_release]
    exact effort_setPhase_le hw (Nat.zero_le _)
  | receive _ => exact Nat.le_refl _

/-- No row of events leads the pool away from its end. -/
theorem Reachable.effort_le (h : Reachable p q) : q.effort ≤ p.effort := by
  induction h with
  | refl => exact Nat.le_refl _
  | more _ hs ih => exact Nat.le_trans (move_of_apply hs).effort_le ih

/-- Nothing is left to do exactly when every worker has ended. -/
theorem effort_eq_zero : p.effort = 0 ↔ ∀ w ∈ p.workers, ∃ sent, w.phase = .ended sent := by
  rw [effort, List.sum_eq_zero_iff_forall_eq_nat, List.forall_mem_map]
  refine forall₂_congr fun w _ => ?_
  cases w.phase with
  | ended sent => exact iff_of_true rfl ⟨sent, rfl⟩
  | spawned | waiting | running => exact iff_of_false nofun fun ⟨_, h⟩ => nomatch h

/-- No worker is more than two events away from its end. -/
theorem effort_le (p : Pool σ ρ) : p.effort ≤ 2 * p.workers.length := by
  rw [effort]
  induction p.workers with
  | nil => exact Nat.le_refl 0
  | cons w ws ih =>
    have hw : w.phase.effort ≤ 2 := by cases w.phase <;> simp [Phase.effort]
    rw [List.map_cons, List.sum_cons, List.length_cons]
    omega

/-! ### Who can go on -/

/-- What is picked is the task of a worker. -/
theorem firstTask_some {pick : Phase σ ρ → Option (Task σ ρ)} {i : Nat} {t : Task σ ρ}
    (h : p.firstTask pick = some (i, t)) : ∃ w, p.workers[i]? = some w ∧ pick w.phase = some t := by
  obtain ⟨⟨w, j⟩, hw, hp⟩ := List.exists_of_findSome?_eq_some h
  obtain ⟨t', ht, he⟩ := Option.map_eq_some_iff.1 hp
  cases he
  exact ⟨w, List.mem_zipIdx_iff_getElem?.1 hw, ht⟩

/-- If nothing is picked, no worker has a task of that kind. -/
theorem firstTask_none {pick : Phase σ ρ → Option (Task σ ρ)} (h : p.firstTask pick = none)
    {i : Nat} {w : Worker σ ρ} (hw : p.workers[i]? = some w) : pick w.phase = none := by
  have := List.findSome?_eq_none_iff.1 h (w, i) (List.mem_zipIdx_iff_getElem?.2 hw)
  exact Option.map_eq_none_iff.1 this

/-- If nobody runs and nobody is still to ask, everybody has ended: nobody waits, for no permit is
held then. -/
theorem effort_eq_zero_of_idle {n : Nat} (h : Permits (n + 1) p)
    (hrun : ∀ (i : Nat) s t, p.workers[i]? ≠ some ⟨s, .running t⟩)
    (hask : ∀ (i : Nat) s t, p.workers[i]? ≠ some ⟨s, .spawned t⟩) : p.effort = 0 := by
  have hheld : p.held = 0 := by
    refine List.sum_eq_zero_iff_forall_eq_nat.2 (List.forall_mem_map.2 fun ⟨s, f⟩ hw => ?_)
    obtain ⟨i, hi⟩ := List.mem_iff_getElem?.1 hw
    cases f with
    | running t => exact absurd hi (hrun i s t)
    | spawned | waiting | ended => rfl
  refine effort_eq_zero.2 fun ⟨s, f⟩ hw => ?_
  obtain ⟨i, hi⟩ := List.mem_iff_getElem?.1 hw
  cases f with
  | ended sent => exact ⟨sent, rfl⟩
  | running t => exact absurd hi (hrun i s t)
  | spawned t => exact absurd hi (hask i s t)
  | waiting t =>
    have hqueue : p.queue ≠ [] := List.ne_nil_of_mem ((h.queued i).2 ⟨_, hi, trivial⟩)
    have hfree := h.busy hqueue
    have hacc := h.account
    omega

/-- A worker that runs has room for its result: each of the others sends one at most. -/
theorem Delivery.room {seats : List Seat} {sizes : List Nat} (h : Delivery seats sizes p)
    (hd : seats.Nodup) (hf : ∀ s ∈ seats, Board.Fits sizes s) {i : Nat} {s : Seat}
    {t : Task σ ρ} (hw : p.workers[i]? = some ⟨s, .running t⟩) : p.channel.length < p.capacity := by
  have hmem : (s, none) ∈ p.endings := List.mem_of_getElem? (getElem?_endings hw)
  obtain ⟨-, hout⟩ := h.slot_of_pending hd hf hmem
  -- all seats on the channel and this one are different seats of workers
  have hsub : s :: p.channel.map (·.1) ⊆ p.endings.map (·.1) := by
    refine List.cons_subset.2 ⟨List.mem_map_of_mem (f := (·.1)) hmem, fun s' hs' => ?_⟩
    obtain ⟨⟨s'', r⟩, hm, rfl⟩ := List.mem_map.1 hs'
    exact List.mem_map_of_mem (f := (·.1)) ((h.sent s'' r).2 (.inl hm))
  have hlen := ((List.nodup_cons.2 ⟨hout, h.once⟩).subperm hsub).length_le
  rw [List.length_cons, List.length_map, List.length_map, endings, List.length_map] at hlen
  exact Nat.lt_of_lt_of_le (Nat.lt_of_succ_le hlen) (Nat.le_max_left _ _)

/-! ### To the end -/

section

variable {seats : List Seat} {sizes : List Nat}

/-- To complete a running task brings the pool nearer its end. -/
theorem complete_effort (hd : seats.Nodup) (hf : ∀ s ∈ seats, Board.Fits sizes s)
    (t : Task σ ρ) {p : Pool σ ρ} (h : Delivery seats sizes p) {i : Nat} {s : Seat}
    (hw : p.workers[i]? = some ⟨s, .running t⟩) :
    Reachable p (p.complete i t) ∧ (p.complete i t).effort < p.effort := by
  induction t generalizing p with
  | done r =>
    have hm := Move.send hw (h.room hd hf hw)
    refine ⟨reachable_play _ _, ?_⟩
    rw [complete, play_cons_of_move hm]
    exact Nat.lt_of_le_of_lt (reachable_play _ _).effort_le (hm.effort_lt trivial)
  | dead =>
    have hm := Move.fall hw
    refine ⟨reachable_play _ _, ?_⟩
    rw [complete, play_cons_of_move hm]
    exact hm.effort_lt trivial
  | step effect next ih =>
    have hm := Move.advance hw
    rw [complete, play_cons_of_move hm]
    have hr := Reachable.more .refl (apply_of_move hm)
    have hnext : (p.setPhase i (.running (next p.shared))).workers[i]? =
        some ⟨s, .running (next p.shared)⟩ := by
      rw [setPhase_workers_eq hw, List.getElem?_set_self (List.getElem?_eq_some_iff.1 hw).1]
    obtain ⟨hr', hlt⟩ := ih p.shared (h.reachable hd hf hr) hnext
    exact ⟨hr.trans hr', Nat.lt_of_lt_of_le hlt hm.effort_le⟩

/-- A round takes some effort off, if any is left. -/
theorem round_effort (hd : seats.Nodup) (hf : ∀ s ∈ seats, Board.Fits sizes s) {n : Nat}
    (h : Delivery seats sizes p) (hp : Permits (n + 1) p) :
    Reachable p p.round ∧ p.round.effort ≤ p.effort - 1 := by
  unfold round
  split
  next i t hi =>
    obtain ⟨⟨s, f⟩, hw, hpick⟩ := firstTask_some hi
    cases f with
    | running t' =>
      obtain rfl := Option.some.inj hpick
      obtain ⟨hr, hlt⟩ := complete_effort hd hf t' h hw
      exact ⟨hr, Nat.le_sub_one_of_lt hlt⟩
    | spawned | waiting | ended => cases hpick
  next hrun =>
    split
    next i t hi =>
      obtain ⟨⟨s, f⟩, hw, hpick⟩ := firstTask_some hi
      cases f with
      | spawned t' =>
        refine ⟨reachable_play _ _, ?_⟩
        cases hfree : p.free with
        | zero =>
          have hm := Move.queue hw hfree
          rw [play_cons_of_move hm]
          exact Nat.le_sub_one_of_lt (hm.effort_lt trivial)
        | succ k =>
          have hm := Move.start hw hfree
          rw [play_cons_of_move hm]
          exact Nat.le_sub_one_of_lt (hm.effort_lt trivial)
      | running | waiting | ended => cases hpick
    next hask =>
      refine ⟨.refl, ?_⟩
      have hzero := effort_eq_zero_of_idle hp
        (fun i s t hw => nomatch firstTask_none hrun hw)
        (fun i s t hw => nomatch firstTask_none hask hw)
      omega

/-- So many rounds take so much effort off. -/
theorem rounds_effort (hd : seats.Nodup) (hf : ∀ s ∈ seats, Board.Fits sizes s) {n : Nat}
    (h : Delivery seats sizes p) (hp : Permits (n + 1) p) (k : Nat) :
    Reachable p ((List.range k).foldl (fun p _ => p.round) p) ∧
      ((List.range k).foldl (fun p _ => p.round) p).effort ≤ p.effort - k := by
  induction k with
  | zero => exact ⟨.refl, Nat.le_refl _⟩
  | succ k ih =>
    obtain ⟨hr, hle⟩ := ih
    rw [List.range_succ, List.foldl_append]
    obtain ⟨hr', hle'⟩ := round_effort hd hf (h.reachable hd hf hr) (hp.reachable hr)
    refine ⟨hr.trans hr', Nat.le_trans hle' ?_⟩
    omega

/-- Receiving everything leaves the channel empty and the workers as they are. -/
theorem play_receive (p : Pool σ ρ) :
    (p.play (p.channel.map fun _ => .receive)).channel = [] ∧
      (p.play (p.channel.map fun _ => .receive)).workers = p.workers := by
  generalize hc : p.channel = c
  induction c generalizing p with
  | nil => exact ⟨hc, rfl⟩
  | cons m c ih =>
    rw [List.map_cons, play_cons_of_move (Move.receive hc)]
    exact ih _ rfl

/-- To drain a pool finishes it by events that it can take. -/
theorem drain_finished (hd : seats.Nodup) (hf : ∀ s ∈ seats, Board.Fits sizes s) {n : Nat}
    (h : Delivery seats sizes p) (hp : Permits (n + 1) p) :
    Reachable p p.drain ∧ p.drain.finished = true := by
  obtain ⟨hr, hle⟩ := rounds_effort hd hf h hp (2 * p.workers.length)
  have hend := effort_eq_zero.1 (Nat.le_zero.1 (Nat.le_trans hle
    (Nat.le_of_eq (Nat.sub_eq_zero_of_le p.effort_le))))
  obtain ⟨hchannel, hworkers⟩ :=
    play_receive ((List.range (2 * p.workers.length)).foldl (fun p _ => p.round) p)
  refine ⟨hr.trans (reachable_play _ _), finished_iff.2 ⟨hchannel, ?_⟩⟩
  rw [drain, hworkers]
  exact hend

end

end Pool

end Assay
