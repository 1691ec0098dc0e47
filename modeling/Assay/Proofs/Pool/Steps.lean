import Assay.Proofs.Pool.Isolation
import Assay.Proofs.Pool.Results

/-!
# Pool — what every step of a task does

`Task.Throughout P t` says that every step that `t` may take, in whatever states it comes to be
taken, is of a kind `P`. A worker takes no steps but those of its task, so whatever the order of
events, the state of a pool changes by steps of these kinds only (`shared_of_reachable`).
-/

namespace Assay

variable {σ ρ α β : Type} {P : (σ → σ) → Prop}

namespace Task

/-- Whether every step of a task is of a kind, in whatever states it takes its steps. -/
def Throughout (P : (σ → σ) → Prop) : Task σ α → Prop
  | .done _           => True
  | .dead             => True
  | .step effect next => P effect ∧ ∀ s, (next s).Throughout P

/-- A weaker property holds of all steps if a stronger one does. -/
theorem Throughout.mono {P' : (σ → σ) → Prop} {t : Task σ α} (h : t.Throughout P)
    (hP : ∀ effect, P effect → P' effect) : t.Throughout P' := by
  induction t with
  | done | dead => trivial
  | step effect next ih => exact ⟨hP effect h.1, fun s => ih s (h.2 s)⟩

/-- A single step is all there is of a task that takes one. -/
theorem throughout_act {f : σ → α × σ} (h : P fun s => (f s).2) : (act f).Throughout P :=
  ⟨h, fun _ => trivial⟩

theorem throughout_look {f : σ → α} (h : P id) : (look f).Throughout P := ⟨h, fun _ => trivial⟩

theorem throughout_change {f : σ → σ} (h : P f) : (change f).Throughout P := ⟨h, fun _ => trivial⟩

/-- What comes behind a task need only be looked at for the values that it can have. -/
theorem throughout_bind {Q : α → Prop} {t : Task σ α} {f : α → Task σ β} (ht : t.Throughout P)
    (hQ : t.Always Q) (hf : ∀ a, Q a → (f a).Throughout P) : (t >>= f).Throughout P := by
  show (t.bind f).Throughout P
  induction t with
  | done a => exact hf a hQ
  | dead => trivial
  | step effect next ih => exact ⟨ht.1, fun s => ih s (ht.2 s) (hQ s)⟩

/-- Two tasks in a row have a property in all their steps if each has it. -/
theorem throughout_bind_of_forall {t : Task σ α} {f : α → Task σ β} (ht : t.Throughout P)
    (hf : ∀ a, (f a).Throughout P) : (t >>= f).Throughout P :=
  throughout_bind ht (always_of_forall (fun _ => trivial) t) fun a (_ : True) => hf a

theorem throughout_map {g : α → β} {t : Task σ α} (h : t.Throughout P) :
    (g <$> t).Throughout P := by
  rw [map_eq_pure_bind]
  exact throughout_bind_of_forall h fun _ => trivial

end Task

namespace Phase

/-- Whether every step that is left to a worker in a phase is of a kind. -/
def Throughout (P : (σ → σ) → Prop) : Phase σ ρ → Prop
  | .spawned t | .waiting t | .running t => t.Throughout P
  | .ended _                             => True

/-- A worker that has not begun has its whole task before it. -/
theorem throughout_spawned {t : Task σ ρ} :
    (Phase.spawned t).Throughout P ↔ t.Throughout P := Iff.rfl

/-- What a worker has still to do is a part of what it had to do before. -/
theorem Next.throughout {f g : Phase σ ρ} (h : f.Next g) (hf : f.Throughout P) :
    g.Throughout P := by
  cases h with
  | stay => exact hf
  | queue | start | wake => exact hf
  | advance _ _ s => exact hf.2 s
  | send | stop => trivial

end Phase

namespace Pool

variable {start p q : Pool σ ρ} {e : Event} {P : Nat → (σ → σ) → Prop}

/-- In every reachable pool a worker's steps are those of the task that it was given. -/
theorem throughout_of_reachable
    (h : ∀ (i : Nat) (w : Worker σ ρ), start.workers[i]? = some w → w.phase.Throughout (P i))
    (hr : Reachable start p) {i : Nat} {w : Worker σ ρ} (hw : p.workers[i]? = some w) :
    w.phase.Throughout (P i) := by
  induction hr generalizing w with
  | refl => exact h i w hw
  | more _ ha ih =>
    obtain ⟨v, hv, -, hn⟩ := (move_of_apply ha).worker hw
    exact hn.throughout (ih hv)

/-- An event leaves the state alone, or it is a step of a worker and of the kind that its steps
have. -/
theorem shared_of_reachable
    (h : ∀ (i : Nat) (w : Worker σ ρ), start.workers[i]? = some w → w.phase.Throughout (P i))
    (hr : Reachable start p) (hm : Move p e q) :
    q.shared = p.shared ∨ ∃ i effect, P i effect ∧ q.shared = effect p.shared := by
  cases hm with
  | queue | start | dieSpawned | dieWaiting | receive => exact .inl rfl
  | send | fall | dieRunning =>
    left
    rw [shared_release]
    rfl
  | @advance i s effect next hw =>
    have hsteps := throughout_of_reachable h hr hw
    exact .inr ⟨i, effect, hsteps.1, rfl⟩

end Pool

end Assay
