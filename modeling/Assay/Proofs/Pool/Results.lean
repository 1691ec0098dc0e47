import Assay.Proofs.Pool.Moves

/-!
# Pool — what the results of tasks have in common

`Task.Yields t r` says that `t` can come to the result `r`, whatever others do to the state between
its steps, and `Task.Always P t` that all results which it can come to have the property `P`. A
worker sends nothing but a result of its task, so a property of all results of a task is one of what
its worker sends (`always_of_reachable`).
-/

namespace Assay

variable {σ ρ α β : Type}

namespace Task

/-- A result that the task comes to in some states. -/
inductive Yields : Task σ α → α → Prop where
  | done (a : α) : Yields (.done a) a
  | step {effect : σ → σ} {next : σ → Task σ α} {s : σ} {a : α} (h : Yields (next s) a) :
      Yields (.step effect next) a

/-- Every result of the task has a property, in whatever states it takes its steps. -/
def Always (P : α → Prop) : Task σ α → Prop
  | .done a      => P a
  | .dead        => True
  | .step _ next => ∀ s, (next s).Always P

/-- A weaker property holds of all results if a stronger one does. -/
theorem Always.mono {P Q : α → Prop} {t : Task σ α} (h : t.Always P) (hPQ : ∀ a, P a → Q a) :
    t.Always Q := by
  induction t with
  | done a => exact hPQ a h
  | dead => trivial
  | step effect next ih => exact fun s => ih s (h s)

/-- All results of a task are results that it can have. -/
theorem always_yields (t : Task σ α) : t.Always t.Yields := by
  induction t with
  | done a => exact .done a
  | dead => trivial
  | step effect next ih => exact fun s => (ih s).mono fun a ha => .step ha

@[simp] theorem always_pure {P : α → Prop} {a : α} : (pure a : Task σ α).Always P ↔ P a := Iff.rfl

@[simp] theorem always_act {P : α → Prop} {f : σ → α × σ} :
    (act f).Always P ↔ ∀ s, P (f s).1 := Iff.rfl

/-- A task behind another has a property if it has it for each result of the first. -/
theorem always_bind {P : α → Prop} {Q : β → Prop} {t : Task σ α} {f : α → Task σ β}
    (ht : t.Always P) (hf : ∀ a, P a → (f a).Always Q) : (t >>= f).Always Q := by
  show (t.bind f).Always Q
  induction t with
  | done a => exact hf a ht
  | dead => trivial
  | step effect next ih => exact fun s => ih s (ht s)

/-- What holds of all values holds of all results. -/
theorem always_of_forall {P : α → Prop} (h : ∀ a, P a) (t : Task σ α) : t.Always P := by
  induction t with
  | done a => exact h a
  | dead => trivial
  | step effect next ih => exact ih

/-- What goes on after any result at all. -/
theorem always_bind_of_forall {Q : β → Prop} {t : Task σ α} {f : α → Task σ β}
    (hf : ∀ a, (f a).Always Q) : (t >>= f).Always Q :=
  always_bind (always_of_forall (fun _ => trivial) t) fun a (_ : True) => hf a

/-- A function of the results has a property if that holds of its values. -/
theorem always_map {P : β → Prop} {g : α → β} {t : Task σ α} (h : t.Always fun a => P (g a)) :
    (g <$> t).Always P := by
  rw [map_eq_pure_bind]
  exact always_bind h fun a ha => ha

end Task

namespace Phase

/-- Every result that a worker in a phase has sent or can come to has a property. -/
def Always (P : ρ → Prop) : Phase σ ρ → Prop
  | .spawned t | .waiting t | .running t => t.Always P
  | .ended sent                          => ∀ r, sent = some r → P r

/-- A worker that goes on can have no result that it could not have before. -/
theorem Next.always {P : ρ → Prop} {f g : Phase σ ρ} (h : f.Next g) (hf : f.Always P) :
    g.Always P := by
  cases h with
  | stay => exact hf
  | queue | start | wake => exact hf
  | advance _ _ s => exact hf s
  | send r => exact fun _ h => Option.some.inj h ▸ hf
  | stop => exact fun _ h => nomatch h

end Phase

namespace Pool

/-- In every reachable pool a worker's results are those of the task that it was given. -/
theorem always_of_reachable {P : ρ → Prop} {p q : Pool σ ρ} {i : Nat}
    (h : ∀ w, p.workers[i]? = some w → w.phase.Always P) (hr : Reachable p q) {w : Worker σ ρ}
    (hw : q.workers[i]? = some w) : w.phase.Always P := by
  induction hr generalizing w with
  | refl => exact h w hw
  | more _ ha ih =>
    obtain ⟨v, hv, -, hn⟩ := (move_of_apply ha).worker hw
    exact hn.always (ih hv)

end Pool

end Assay
