import Assay.Proofs.Pool.Moves
import Mathlib.Algebra.Ring.Nat
import Mathlib.Data.List.Nodup

/-!
# Pool — permits

`Permits n p` says that the permits of a pool are `n` in number, each free or held by a worker that
runs, and that the queue holds the workers that wait, each once. A permit is free only when nobody
waits. Every event keeps this (`Permits.move`), and so every sequence of events
(`Permits.reachable`).
-/

namespace Assay

variable {σ ρ : Type}

/-- Permits that a worker in a phase holds. -/
def Phase.permits : Phase σ ρ → Nat
  | .running _ => 1
  | _          => 0

def Phase.IsWaiting : Phase σ ρ → Prop
  | .waiting _ => True
  | _          => False

namespace Pool

/-- Permits that workers hold. -/
def held (p : Pool σ ρ) : Nat := (p.workers.map (·.phase.permits)).sum

/-- Whether a worker waits, by its number. -/
def Waits (p : Pool σ ρ) (i : Nat) : Prop := ∃ w, p.workers[i]? = some w ∧ w.phase.IsWaiting

structure Permits (n : Nat) (p : Pool σ ρ) : Prop where
  account : p.free + p.held = n
  queued : ∀ i, i ∈ p.queue ↔ p.Waits i
  once : p.queue.Nodup
  busy : p.queue ≠ [] → p.free = 0

/-! ### A change of one worker -/

/-- What a change of one item does to a sum. -/
theorem sum_map_set {α : Type} (g : α → Nat) {l : List α} {i : Nat} {a : α}
    (h : l[i]? = some a) (b : α) : ((l.set i b).map g).sum + g a = (l.map g).sum + g b := by
  induction l generalizing i with
  | nil => cases h
  | cons c l ih =>
    cases i with
    | zero =>
      obtain rfl := Option.some.inj h
      simp only [List.set_cons_zero, List.map_cons, List.sum_cons]
      omega
    | succ i =>
      have := ih h
      simp only [List.set_cons_succ, List.map_cons, List.sum_cons]
      omega

theorem setPhase_workers_eq {p : Pool σ ρ} {i : Nat} {s : Seat} {f : Phase σ ρ}
    (hw : p.workers[i]? = some ⟨s, f⟩) (g : Phase σ ρ) :
    (p.setPhase i g).workers = p.workers.set i ⟨s, g⟩ := by
  rw [workers_setPhase, modify_of_getElem? hw]

/-- If one worker goes on, the permits that are held change by its own. -/
theorem held_setPhase {p : Pool σ ρ} {i : Nat} {s : Seat} {f : Phase σ ρ}
    (hw : p.workers[i]? = some ⟨s, f⟩) (g : Phase σ ρ) :
    (p.setPhase i g).held + f.permits = p.held + g.permits := by
  rw [held, setPhase_workers_eq hw]
  exact sum_map_set (fun w => w.phase.permits) hw ⟨s, g⟩

/-- If one worker goes on, only whether it waits itself can change. -/
theorem waits_setPhase {p : Pool σ ρ} {i : Nat} {s : Seat} {f : Phase σ ρ}
    (hw : p.workers[i]? = some ⟨s, f⟩) (g : Phase σ ρ) (j : Nat) :
    (p.setPhase i g).Waits j ↔ if j = i then g.IsWaiting else p.Waits j := by
  rw [Waits, setPhase_workers_eq hw]
  by_cases hj : j = i
  · subst hj
    rw [List.getElem?_set_self (List.getElem?_eq_some_iff.1 hw).1, if_pos rfl]
    refine ⟨fun ⟨w, e, h⟩ => ?_, fun h => ⟨_, rfl, h⟩⟩
    obtain rfl := Option.some.inj e
    exact h
  · rw [List.getElem?_set_ne (Ne.symm hj), if_neg hj]
    rfl

theorem isWaiting_of_waits {p : Pool σ ρ} {i : Nat} (h : p.Waits i) :
    ∃ s t, p.workers[i]? = some ⟨s, .waiting t⟩ := by
  obtain ⟨⟨s, f⟩, hw, hf⟩ := h
  cases f with
  | waiting t => exact ⟨s, t, hw⟩
  | spawned | running | ended => exact hf.elim

namespace Permits

variable {n : Nat} {p q : Pool σ ρ}

/-- What is neither free, nor queued, nor a worker does not matter. -/
theorem of_eq (h : Permits n p) (hf : q.free = p.free) (hq : q.queue = p.queue)
    (hw : q.workers = p.workers) : Permits n q := by
  obtain ⟨shared, free, queue, workers, channel, board⟩ := q
  obtain rfl : free = p.free := hf
  obtain rfl : queue = p.queue := hq
  obtain rfl : workers = p.workers := hw
  exact ⟨h.account, h.queued, h.once, h.busy⟩

/-- A worker that neither waits nor will wait changes. -/
theorem setPhase (h : Permits n p) {i k : Nat} {s : Seat} {f g : Phase σ ρ}
    (hw : p.workers[i]? = some ⟨s, f⟩) (hf : ¬ f.IsWaiting) (hg : ¬ g.IsWaiting)
    (hk : p.free + p.held + g.permits = k + f.permits) : Permits k (p.setPhase i g) where
  account := by
    have hheld := held_setPhase hw g
    show p.free + (p.setPhase i g).held = k
    omega
  queued j := by
    rw [waits_setPhase hw]
    show j ∈ p.queue ↔ _
    by_cases hj : j = i
    · subst hj
      rw [if_pos rfl, h.queued]
      refine iff_of_false (fun ⟨w, e, hwait⟩ => hf ?_) hg
      obtain rfl := Option.some.inj (e.symm.trans hw)
      exact hwait
    · rw [if_neg hj, h.queued]
  once := h.once
  busy := h.busy

/-- To give a permit back makes it free, or the first that waits has it. -/
theorem release (h : Permits n p) : Permits (n + 1) p.release := by
  unfold Pool.release
  split
  next hq =>
    refine ⟨?_, h.queued, h.once, fun hne => absurd hq hne⟩
    show p.free + 1 + p.held = n + 1
    have := h.account
    omega
  next i r hq =>
    have hone := h.once
    rw [hq, List.nodup_cons] at hone
    obtain ⟨hout, hrest⟩ := hone
    obtain ⟨s, t, hw⟩ := isWaiting_of_waits ((h.queued i).1 (hq ▸ List.mem_cons_self))
    -- the pool woken is the pool with the phase of its first in the queue set
    have hwake : (({ p with queue := r } : Pool σ ρ).wake i) =
        { p.setPhase i (.running t) with queue := r } := by
      simp only [wake, Pool.setPhase, modify_of_getElem? hw]
    rw [hwake]
    refine ⟨?_, fun j => ?_, hrest, fun _ => h.busy (hq ▸ List.cons_ne_nil _ _)⟩
    · have hheld : (p.setPhase i (.running t)).held + 0 = p.held + 1 := held_setPhase hw _
      show p.free + (p.setPhase i (.running t)).held = n + 1
      have := h.account
      omega
    · show j ∈ r ↔ (p.setPhase i (.running t)).Waits j
      rw [waits_setPhase hw, ← h.queued, hq, List.mem_cons]
      by_cases hj : j = i
      · subst hj
        rw [if_pos rfl]
        exact iff_of_false hout id
      · rw [if_neg hj]
        exact (or_iff_right hj).symm

/-- A worker that holds a permit ends and gives it back. -/
theorem end_release (h : Permits n p) {i : Nat} {s : Seat} {t : Task σ ρ} {sent : Option ρ}
    (hw : p.workers[i]? = some ⟨s, .running t⟩) (hf : q.free = p.free) (hq : q.queue = p.queue)
    (hq' : q.workers = (p.setPhase i (.ended sent)).workers) : Permits n q.release := by
  have hheld : (p.setPhase i (.ended sent)).held + 1 = p.held + 0 := held_setPhase hw _
  have hacc := h.account
  obtain ⟨k, rfl⟩ : ∃ k, n = k + 1 := ⟨p.free + (p.setPhase i (.ended sent)).held, by omega⟩
  refine (of_eq (h.setPhase hw id id ?_) hf hq hq').release
  show p.free + p.held + 0 = k + 1
  omega

/-- One event neither makes nor loses a permit. -/
theorem move (h : Permits n p) {e : Event} (hm : Move p e q) : Permits n q := by
  have hacc := h.account
  cases hm with
  | queue hw hf =>
    rename_i i s t
    -- who asks does not wait yet, so it is queued only once
    have hnew : i ∉ p.queue := fun hi => by
      obtain ⟨s', t', hw'⟩ := isWaiting_of_waits ((h.queued i).1 hi)
      cases hw.symm.trans hw'
    refine ⟨?_, fun j => ?_, ?_, fun _ => hf⟩
    · have hheld : (p.setPhase i (.waiting t)).held + 0 = p.held + 0 := held_setPhase hw _
      show p.free + (p.setPhase i (.waiting t)).held = n
      omega
    · show j ∈ p.queue ++ [i] ↔ (p.setPhase i (.waiting t)).Waits j
      rw [waits_setPhase hw, List.mem_append, List.mem_singleton, h.queued]
      by_cases hj : j = i
      · rw [if_pos hj]
        exact iff_of_true (.inr hj) trivial
      · rw [if_neg hj]
        exact or_iff_left hj
    · exact List.nodup_append.2 ⟨h.once, List.nodup_singleton i, fun a ha b hb hab =>
        hnew (List.mem_singleton.1 hb ▸ hab ▸ ha)⟩
  | start hw hf =>
    rename_i i k s t
    have hstart : Permits (n + 1) (p.setPhase i (.running t)) :=
      h.setPhase hw id id (congrArg (· + 1) hacc)
    refine ⟨?_, hstart.queued, h.once, fun hne => ?_⟩
    · have hsum : p.free + (p.setPhase i (.running t)).held = n + 1 := hstart.account
      show k + (p.setPhase i (.running t)).held = n
      omega
    · have hnone : p.free = 0 := h.busy hne
      omega
  | advance hw =>
    refine of_eq (h.setPhase (g := .running _) (k := n) hw id id ?_) rfl rfl rfl
    exact congrArg (· + 1) hacc
  | send hw _ | fall hw | dieRunning hw => exact h.end_release hw rfl rfl rfl
  | dieSpawned hw => exact h.setPhase hw id id (congrArg (· + 0) hacc)
  | dieWaiting hw =>
    rename_i i s t
    refine ⟨?_, fun j => ?_, h.once.erase i, fun hne => h.busy fun hnil => ?_⟩
    · have hheld : (p.setPhase i (.ended none)).held + 0 = p.held + 0 := held_setPhase hw _
      show p.free + (p.setPhase i (.ended none)).held = n
      omega
    · show j ∈ p.queue.erase i ↔ (p.setPhase i (.ended none)).Waits j
      rw [waits_setPhase hw, h.once.mem_erase_iff, h.queued]
      by_cases hj : j = i
      · rw [if_pos hj]
        exact iff_of_false (fun hc => hc.1 hj) id
      · rw [if_neg hj]
        exact and_iff_right hj
    · rw [hnil] at hne
      exact hne rfl
  | receive _ => exact ⟨h.account, h.queued, h.once, h.busy⟩

/-- In every reachable pool all permits are accounted for. -/
theorem reachable (h : Permits n p) (hr : Reachable p q) : Permits n q := by
  induction hr with
  | refl => exact h
  | more _ hs ih => exact ih.move (move_of_apply hs)

end Permits

end Pool

end Assay
