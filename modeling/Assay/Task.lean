/-!
# Task — work in single steps on shared state

A task is a tree of steps. Each step changes the state at once and then, by what the state was
before, decides how to go on; between two steps of one task others may take theirs. A task ends with
a result, or dies without one.

* `Task.run`: the task alone, from a state to its end.
-/

namespace Assay

inductive Task (σ α : Type) where
  | done (a : α)
  | dead
  | step (effect : σ → σ) (next : σ → Task σ α)

namespace Task

variable {σ α β : Type}

/-- Goes on with `f` where `t` ends. -/
def bind : Task σ α → (α → Task σ β) → Task σ β
  | .done a, f           => f a
  | .dead, _             => .dead
  | .step effect next, f => .step effect fun s => (next s).bind f

instance : Monad (Task σ) where
  pure := .done
  bind := bind

/-- One step that changes the state and has a result. -/
def act (f : σ → α × σ) : Task σ α := .step (fun s => (f s).2) fun s => .done (f s).1

/-- One step that only looks at the state. -/
def look (f : σ → α) : Task σ α := .step id fun s => .done (f s)

/-- One step that only changes the state. -/
def change (f : σ → σ) : Task σ Unit := .step f fun _ => .done ()

/-- The result of a task alone, none if it dies, and the state it leaves. -/
def run : Task σ α → σ → Option α × σ
  | .done a, s           => (some a, s)
  | .dead, s             => (none, s)
  | .step effect next, s => (next s).run (effect s)

@[simp] theorem run_pure (a : α) (s : σ) : (pure a : Task σ α).run s = (some a, s) := rfl

@[simp] theorem run_act (f : σ → α × σ) (s : σ) : (act f).run s = (some (f s).1, (f s).2) := rfl

@[simp] theorem run_look (f : σ → α) (s : σ) : (look f).run s = (some (f s), s) := rfl

@[simp] theorem run_change (f : σ → σ) (s : σ) : (change f).run s = (some (), f s) := rfl

/-- A sequence of two tasks runs the second from where the first ends, if it does not die. -/
theorem run_bind (t : Task σ α) (f : α → Task σ β) (s : σ) :
    (t >>= f).run s =
      match t.run s with
      | (some a, s') => (f a).run s'
      | (none, s')   => (none, s') := by
  show (t.bind f).run s = _
  induction t generalizing s with
  | done a => rfl
  | dead => rfl
  | step effect next ih => exact ih s (effect s)

/-- A function of the result of a task changes nothing else. -/
theorem run_map (g : α → β) (t : Task σ α) (s : σ) :
    (g <$> t).run s = ((t.run s).1.map g, (t.run s).2) := by
  show (t.bind fun a => .done (g a)).run s = _
  induction t generalizing s with
  | done a => rfl
  | dead => rfl
  | step effect next ih => exact ih s (effect s)

theorem bind_done (t : Task σ α) : t.bind .done = t := by
  induction t with
  | done a => rfl
  | dead => rfl
  | step effect next ih => simp only [bind, ih]

/-- Three tasks in a row can be put together in either way. -/
theorem bind_bind {γ : Type} (t : Task σ α) (f : α → Task σ β) (g : β → Task σ γ) :
    (t.bind f).bind g = t.bind fun a => (f a).bind g := by
  induction t with
  | done a => rfl
  | dead => rfl
  | step effect next ih => simp only [bind, ih]

instance : LawfulMonad (Task σ) :=
  LawfulMonad.mk' _ (fun t => bind_done t) (fun _ _ => rfl) (fun t f g => bind_bind t f g)

end Task

end Assay
