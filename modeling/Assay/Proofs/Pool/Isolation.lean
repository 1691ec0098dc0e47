import Assay.Proofs.Pool.Draining
import Assay.Proofs.Pool.Results

/-!
# Pool — tasks that do not see each other

`t.Isolated alike frame` says that in states that are alike to it the task `t` does the same, that
the states stay alike, and that it changes a state only within its frame. If every change within the
frame of one task leaves the states alike that are alike to another (`Isolation`), then each worker
of a pool comes to what its task comes to alone (`Isolation.sent_of_finished`), in whatever order
the workers take their steps, as long as none is cut off.

* `Uncut`: the pools that events other than cuts lead to; schedules without cuts play within it
  (`uncut_play`), and so does the way to the end (`uncut_drain`).
* `Task.StartsAlike`: whether it makes no difference from which of two states the first step is
  taken. If it makes none to any task, then a pool may as well start in the other state
  (`Uncut.restart`).
-/

namespace Assay

variable {σ ρ α β : Type}

namespace Task

/-- Whether a task does the same in any two states that are alike to it, keeps them alike, and
changes them within a frame only. -/
def Isolated (alike frame : σ → σ → Prop) : Task σ α → Prop
  | .done _           => True
  | .dead             => True
  | .step effect next => ∀ g s, alike g s →
    next g = next s ∧ alike (effect g) (effect s) ∧ frame g (effect g) ∧
      (next s).Isolated alike frame

section

variable {alike frame : σ → σ → Prop} {g s : σ} {t : Task σ α}

/-- What a task that goes on does once the first part has had a result of the expected kind. -/
theorem isolated_bind {P : α → Prop} {f : α → Task σ β} (ht : t.Isolated alike frame)
    (hP : t.Always P) (hf : ∀ a, P a → (f a).Isolated alike frame) :
    (t >>= f).Isolated alike frame := by
  show (t.bind f).Isolated alike frame
  induction t with
  | done a => exact hf a hP
  | dead => trivial
  | step effect next ih =>
    intro g s h
    obtain ⟨hnext, halike, hframe, hrest⟩ := ht g s h
    exact ⟨congrArg (·.bind f) hnext, halike, hframe, ih s hrest (hP s)⟩

/-- Two tasks in a row are isolated if each is. -/
theorem isolated_bind_of_forall {f : α → Task σ β} (ht : t.Isolated alike frame)
    (hf : ∀ a, (f a).Isolated alike frame) : (t >>= f).Isolated alike frame :=
  isolated_bind ht (always_of_forall (fun _ => trivial) t) fun a (_ : True) => hf a

/-- A function of its result leaves a task isolated. -/
theorem isolated_map {f : α → β} (ht : t.Isolated alike frame) :
    (f <$> t).Isolated alike frame := by
  rw [map_eq_pure_bind]
  exact isolated_bind_of_forall ht fun _ => trivial

/-- One step that changes the state. -/
theorem isolated_act {f : σ → α × σ}
    (h : ∀ g s, alike g s → (f g).1 = (f s).1 ∧ alike (f g).2 (f s).2 ∧ frame g (f g).2) :
    (act f).Isolated alike frame := fun g s hgs => by
  obtain ⟨hresult, halike, hframe⟩ := h g s hgs
  exact ⟨congrArg Task.done hresult, halike, hframe, trivial⟩

/-- One step, and what follows its result in the states in which it is taken. -/
theorem isolated_act_bind {f : σ → α × σ} {next : α → Task σ β}
    (h : ∀ g s, alike g s → (f g).1 = (f s).1 ∧ alike (f g).2 (f s).2 ∧ frame g (f g).2 ∧
      (next (f s).1).Isolated alike frame) : (act f >>= next).Isolated alike frame :=
  fun g s hgs => by
    obtain ⟨hresult, halike, hframe, hrest⟩ := h g s hgs
    exact ⟨congrArg next hresult, halike, hframe, hrest⟩

/-- Alone in one of two states that are alike to it, a task comes to the same as in the other. -/
theorem Isolated.run (h : t.Isolated alike frame) (hgs : alike g s) :
    (t.run g).1 = (t.run s).1 ∧ alike (t.run g).2 (t.run s).2 := by
  induction t generalizing g s with
  | done a => exact ⟨rfl, hgs⟩
  | dead => exact ⟨rfl, hgs⟩
  | step effect next ih =>
    obtain ⟨hnext, halike, -, hrest⟩ := h g s hgs
    simp only [Task.run, hnext]
    exact ih s hrest halike

/-- What every change within the frame keeps, the whole task keeps. -/
theorem Isolated.keeps {R : σ → Prop} (h : t.Isolated alike frame) (hgs : alike g s)
    (hR : ∀ g g', frame g g' → R g → R g') (hg : R g) : R (t.run g).2 := by
  induction t generalizing g s with
  | done a => exact hg
  | dead => exact hg
  | step effect next ih =>
    obtain ⟨hnext, halike, hframe, hrest⟩ := h g s hgs
    simp only [Task.run, hnext]
    exact ih s hrest halike (hR _ _ hframe hg)

end

/-- Whether it makes no difference from which of two states a task takes its first step, and it has
one to take. -/
def StartsAlike (m m' : σ) (t : Task σ α) : Prop :=
  ∃ effect next, t = .step effect next ∧ effect m = effect m' ∧ next m = next m'

/-- From two states that come to the same in the first step a task runs alike. -/
theorem StartsAlike.run {m m' : σ} {t : Task σ α} (h : t.StartsAlike m m') :
    t.run m = t.run m' := by
  obtain ⟨effect, next, rfl, heffect, hnext⟩ := h
  simp only [Task.run, heffect, hnext]

/-- Two tasks in a row start alike if the first does. -/
theorem StartsAlike.bind {m m' : σ} {t : Task σ α} (h : t.StartsAlike m m') (f : α → Task σ β) :
    (t >>= f).StartsAlike m m' := by
  obtain ⟨effect, next, rfl, heffect, hnext⟩ := h
  exact ⟨effect, fun s => (next s).bind f, rfl, heffect, congrArg (·.bind f) hnext⟩

end Task

/-- Whether changes within the frame of each of some tasks leave all others as they are. -/
structure Isolation (tasks : List (Task σ ρ)) (alike frame : Nat → σ → σ → Prop) : Prop where
  isolated : ∀ (n : Nat) (t : Task σ ρ), tasks[n]? = some t → t.Isolated (alike n) (frame n)
  apart : ∀ n k g g' s, n ≠ k → frame n g g' → alike k g s → alike k g' s

namespace Phase

/-- Whether a worker has not begun, and may begin in either of two states. -/
def StartsAlike (m m' : σ) : Phase σ ρ → Prop
  | .spawned t | .waiting t | .running t => t.StartsAlike m m'
  | .ended _                             => False

/-- Whether a worker, in the state `g`, is where its task `t` comes to alone from the state `m`. -/
def Abreast (alike frame : σ → σ → Prop) (t : Task σ ρ) (m g : σ) : Phase σ ρ → Prop
  | .spawned t' | .waiting t' | .running t' =>
    ∃ s, alike g s ∧ t'.Isolated alike frame ∧ t'.run s = t.run m
  | .ended sent => sent = (t.run m).1 ∧ alike g (t.run m).2

/-- What a worker cannot tell apart does not bring it out of step. -/
theorem Abreast.of_alike {alike frame : σ → σ → Prop} {t : Task σ ρ} {m g g' : σ} {f : Phase σ ρ}
    (h : f.Abreast alike frame t m g) (hg : ∀ s, alike g s → alike g' s) :
    f.Abreast alike frame t m g' := by
  cases f with
  | spawned | waiting | running =>
    obtain ⟨s, halike, hrest⟩ := h
    exact ⟨s, hg s halike, hrest⟩
  | ended sent => exact ⟨h.1, hg _ h.2⟩

end Phase

namespace Pool

/-! ### Without cuts -/

/-- Whether an event cuts a worker off. -/
def Event.Cuts : Event → Prop
  | .die _ => True
  | _      => False

/-- The pools that events without cuts lead to from a given one. -/
inductive Uncut (start : Pool σ ρ) : Pool σ ρ → Prop where
  | refl : Uncut start start
  | more {p q : Pool σ ρ} {e : Event} (h : Uncut start p) (he : ¬ e.Cuts) (s : Move p e q) :
      Uncut start q

variable {p q r : Pool σ ρ}

@[simp] theorem shared_release (p : Pool σ ρ) : p.release.shared = p.shared := by
  unfold release
  split <;> rfl

/-- All workers start alike if the one that goes on does. -/
theorem startsAlike_setPhase {m m' : σ} (h : ∀ w ∈ p.workers, w.phase.StartsAlike m m') {i : Nat}
    {f : Phase σ ρ} (hf : f.StartsAlike m m') :
    ∀ w ∈ (p.setPhase i f).workers, w.phase.StartsAlike m m' := by
  intro w hw
  obtain ⟨j, hj⟩ := List.mem_iff_getElem?.1 hw
  obtain ⟨v, hv, ⟨-, rfl⟩ | ⟨-, rfl⟩⟩ := getElem?_modify_inv hj
  · exact hf
  · exact h _ (List.mem_of_getElem? hv)

/-- No event adds a worker or takes one away. -/
theorem Move.length_workers {e : Event} (h : Move p e q) : q.workers.length = p.workers.length := by
  have hrelease : ∀ p : Pool σ ρ, p.release.workers.length = p.workers.length := fun p => by
    unfold release
    split
    · rfl
    · exact List.length_modify ..
  cases h with
  | queue | start | advance | dieSpawned | dieWaiting => exact List.length_modify ..
  | send | fall | dieRunning => exact (hrelease _).trans (List.length_modify ..)
  | receive => rfl

/-- What is reachable without cuts is reachable. -/
theorem Uncut.reachable (h : Uncut p q) : Reachable p q := by
  induction h with
  | refl => exact .refl
  | more _ _ hs ih => exact .more ih (apply_of_move hs)

theorem Uncut.trans (h : Uncut p q) (h' : Uncut q r) : Uncut p r := by
  induction h' with
  | refl => exact h
  | more _ he hs ih => exact .more ih he hs

/-- A schedule without cuts cuts nobody off. -/
theorem uncut_play {schedule : List Event} (h : ∀ e ∈ schedule, ¬ e.Cuts) (p : Pool σ ρ) :
    Uncut p (p.play schedule) := by
  induction schedule generalizing p with
  | nil => exact .refl
  | cons e es ih =>
    obtain ⟨he, hes⟩ := List.forall_mem_cons.1 h
    show Uncut p (((p.apply e).getD p).play es)
    cases ha : p.apply e with
    | none => exact ih hes p
    | some q => exact (Uncut.more .refl he (move_of_apply ha)).trans (ih hes q)

/-- To complete a task cuts nobody off. -/
theorem uncut_complete (p : Pool σ ρ) (i : Nat) (t : Task σ ρ) : Uncut p (p.complete i t) := by
  induction t generalizing p with
  | done r => exact uncut_play (by simp [Event.Cuts]) p
  | dead => exact uncut_play (by simp [Event.Cuts]) p
  | step effect next ih => exact (uncut_play (by simp [Event.Cuts]) p).trans (ih _ _)

/-- A round cuts nobody off. -/
theorem uncut_round (p : Pool σ ρ) : Uncut p p.round := by
  unfold round
  split
  · exact uncut_complete p _ _
  · split
    · exact uncut_play (by simp [Event.Cuts]) p
    · exact .refl

/-- Nobody is cut off on the way to the end. -/
theorem uncut_drain (p : Pool σ ρ) : Uncut p p.drain := by
  have hrounds : ∀ k, Uncut p ((List.range k).foldl (fun p _ => p.round) p) := fun k => by
    induction k with
    | zero => exact .refl
    | succ k ih =>
      rw [List.range_succ, List.foldl_append]
      exact ih.trans (uncut_round _)
  refine (hrounds _).trans (uncut_play (fun e he => ?_) _)
  obtain ⟨-, -, rfl⟩ := List.mem_map.1 he
  exact id

/-! ### Another start -/

/-- It makes no difference from which of two states a pool starts as long as it makes none to the
first step of any worker: until the first of them is taken, everything is the same in both. -/
theorem Uncut.restart {m : σ} (h : Uncut p q)
    (hp : ∀ w ∈ p.workers, w.phase.StartsAlike p.shared m) :
    Uncut { p with shared := m } q ∨
      (Uncut { p with shared := m } { q with shared := m } ∧ q.shared = p.shared ∧
        ∀ w ∈ q.workers, w.phase.StartsAlike p.shared m) := by
  induction h with
  | refl => exact .inr ⟨.refl, rfl, hp⟩
  | @more p₁ q₁ e _ he hm ih =>
    obtain hbegun | ⟨hswap, hshared, hall⟩ := ih
    · exact .inl (.more hbegun he hm)
    -- nobody has begun yet, and so nobody has ended
    cases hm with
    | queue hw hf =>
      refine .inr ⟨.more hswap he (.queue hw hf), hshared, ?_⟩
      exact startsAlike_setPhase hall (hall _ (List.mem_of_getElem? hw))
    | start hw hf =>
      refine .inr ⟨.more hswap he (.start hw hf), hshared, ?_⟩
      exact startsAlike_setPhase hall (hall _ (List.mem_of_getElem? hw))
    | advance hw =>
      obtain ⟨effect, next, ht, heffect, hnext⟩ := hall _ (List.mem_of_getElem? hw)
      cases ht
      have hmove := Move.advance (p := { p₁ with shared := m }) hw
      rw [← heffect, ← hnext, ← hshared] at hmove
      exact .inl (.more hswap he hmove)
    | send hw room =>
      obtain ⟨_, _, ht, -⟩ := hall _ (List.mem_of_getElem? hw)
      cases ht
    | fall hw =>
      obtain ⟨_, _, ht, -⟩ := hall _ (List.mem_of_getElem? hw)
      cases ht
    | dieSpawned hw => exact absurd trivial he
    | dieWaiting hw => exact absurd trivial he
    | dieRunning hw => exact absurd trivial he
    | receive hc => exact .inr ⟨.more hswap he (.receive hc), hshared, hall⟩

/-! ### Side by side -/

section

variable {tasks : List (Task σ ρ)} {alike frame : Nat → σ → σ → Prop} {m : σ}

/-- Whether each worker is where its task comes to alone from the state `m`. -/
def Abreast (tasks : List (Task σ ρ)) (alike frame : Nat → σ → σ → Prop) (m : σ)
    (p : Pool σ ρ) : Prop :=
  ∀ (n : Nat) (w : Worker σ ρ), p.workers[n]? = some w →
    ∃ t, tasks[n]? = some t ∧ w.phase.Abreast (alike n) (frame n) t m p.shared

/-- If one worker stays in step without a change of the state, all do. -/
theorem Abreast.setPhase (h : p.Abreast tasks alike frame m) {i : Nat} {s : Seat} {f f' : Phase σ ρ}
    (hw : p.workers[i]? = some ⟨s, f⟩) (hq : q.workers = (p.setPhase i f').workers)
    (hshared : q.shared = p.shared)
    (hf : ∀ t, f.Abreast (alike i) (frame i) t m p.shared →
      f'.Abreast (alike i) (frame i) t m p.shared) : q.Abreast tasks alike frame m := by
  intro n w hn
  rw [hshared]
  obtain ⟨v, hv, ⟨rfl, rfl⟩ | ⟨-, rfl⟩⟩ := getElem?_modify_inv (hq ▸ hn)
  · obtain rfl := Option.some.inj (hv.symm.trans hw)
    obtain ⟨t, ht, habreast⟩ := h _ _ hw
    exact ⟨t, ht, hf t habreast⟩
  · exact h n _ hv

/-- A worker that is woken is where it was. -/
theorem Abreast.release (h : p.Abreast tasks alike frame m) :
    p.release.Abreast tasks alike frame m := by
  intro n w hn
  rw [shared_release]
  obtain hsame | ⟨s, t, hwaits, rfl⟩ := release_worker hn
  · exact h n w hsame
  · have habreast := h n _ hwaits
    exact habreast

/-- A step of one worker leaves the others where they are. -/
theorem Abreast.move (hI : Isolation tasks alike frame) (h : p.Abreast tasks alike frame m)
    {e : Event} (he : ¬ e.Cuts) (hm : Move p e q) : q.Abreast tasks alike frame m := by
  cases hm with
  | queue hw hf => exact h.setPhase hw rfl rfl fun _ => id
  | start hw hf => exact h.setPhase hw rfl rfl fun _ => id
  | send hw room =>
    refine Abreast.release (h.setPhase hw rfl rfl ?_)
    rintro t ⟨s, halike, -, hrun⟩
    rw [Phase.Abreast, ← hrun]
    exact ⟨rfl, halike⟩
  | fall hw =>
    refine Abreast.release (h.setPhase hw rfl rfl ?_)
    rintro t ⟨s, halike, -, hrun⟩
    rw [Phase.Abreast, ← hrun]
    exact ⟨rfl, halike⟩
  | dieSpawned hw => exact absurd trivial he
  | dieWaiting hw => exact absurd trivial he
  | dieRunning hw => exact absurd trivial he
  | receive hc => exact h
  | @advance i seat effect next hw =>
    obtain ⟨t, ht, s, halike, hiso, hrun⟩ := h _ _ hw
    obtain ⟨hnext, halike', hframe, hrest⟩ := hiso p.shared s halike
    intro n w hn
    obtain ⟨v, hv, ⟨rfl, rfl⟩ | ⟨hne, rfl⟩⟩ := getElem?_modify_inv hn
    · refine ⟨t, ht, effect s, halike', ?_, ?_⟩
      · rw [hnext]
        exact hrest
      · rw [hnext]
        exact hrun
    · obtain ⟨t', ht', habreast⟩ := h n _ hv
      exact ⟨t', ht', habreast.of_alike fun s' => hI.apart i n _ _ s' hne hframe⟩

/-- As long as nobody is cut off, all workers stay in step. -/
theorem Abreast.uncut (hI : Isolation tasks alike frame) (h : p.Abreast tasks alike frame m)
    (hq : Uncut p q) : q.Abreast tasks alike frame m := by
  induction hq with
  | refl => exact h
  | more _ he hm ih => exact ih.move hI he hm

/-- What every change within a frame keeps holds on the whole way. -/
theorem Abreast.keeps (hI : Isolation tasks alike frame) (h : p.Abreast tasks alike frame m)
    {R : σ → Prop} (hR : ∀ n g g', frame n g g' → R g → R g') (hp : R p.shared) (hq : Uncut p q) :
    R q.shared := by
  induction hq with
  | refl => exact hp
  | more hr he hm ih =>
    have habreast := h.uncut hI hr
    cases hm with
    | queue hw hf => exact ih
    | start hw hf => exact ih
    | send hw room =>
      rw [shared_release]
      exact ih
    | fall hw =>
      rw [shared_release]
      exact ih
    | dieSpawned hw => exact absurd trivial he
    | dieWaiting hw => exact absurd trivial he
    | dieRunning hw => exact absurd trivial he
    | receive hc => exact ih
    | @advance i seat effect next hw =>
      obtain ⟨t, ht, s, halike, hiso, -⟩ := habreast _ _ hw
      obtain ⟨-, -, hframe, -⟩ := hiso _ s halike
      exact hR i _ _ hframe ih

/-- Whether no worker of a pool has begun, and each has its task. -/
def Fresh (tasks : List (Task σ ρ)) (p : Pool σ ρ) : Prop :=
  ∀ (n : Nat) (w : Worker σ ρ), p.workers[n]? = some w →
    ∃ t, tasks[n]? = some t ∧ w.phase = .spawned t

/-- Workers that have not begun are in step with any state that each takes for its own start. -/
theorem Fresh.abreast (hI : Isolation tasks alike frame) (h : p.Fresh tasks)
    (hm : ∀ n, alike n m m) : { p with shared := m }.Abreast tasks alike frame m := by
  intro n w hw
  obtain ⟨t, ht, hphase⟩ := h n w hw
  refine ⟨t, ht, ?_⟩
  rw [hphase]
  exact ⟨m, hm n, hI.isolated n t ht, rfl⟩

/-- Without cuts there are as many workers as at the start. -/
theorem Uncut.length_workers (h : Uncut p q) : q.workers.length = p.workers.length := by
  induction h with
  | refl => rfl
  | more _ _ hm ih => exact hm.length_workers.trans ih

/-- Without workers nothing happens to the state. -/
theorem Uncut.shared_of_nil (h : Uncut p q) (hp : p.workers = []) : q.shared = p.shared := by
  induction h with
  | refl => rfl
  | more h _ hm ih =>
    have hnone := List.eq_nil_of_length_eq_zero (h.length_workers.trans (congrArg List.length hp))
    cases hm with
    | receive => exact ih
    | queue hw | start hw | advance hw | send hw | fall hw | dieSpawned hw | dieWaiting hw
    | dieRunning hw =>
      rw [hnone] at hw
      cases hw

/-- A pool that is finished has begun, unless it has no workers. -/
theorem uncut_of_finished (h : p.Fresh tasks) (hstart : ∀ t ∈ tasks, t.StartsAlike p.shared m)
    (hq : Uncut p q) (hfin : q.finished = true) :
    p.workers = [] ∨ Uncut { p with shared := m } q := by
  have hspawned : ∀ w ∈ p.workers, w.phase.StartsAlike p.shared m := fun w hw => by
    obtain ⟨n, hn⟩ := List.mem_iff_getElem?.1 hw
    obtain ⟨t, ht, hphase⟩ := h n w hn
    rw [hphase]
    exact hstart t (List.mem_of_getElem? ht)
  obtain hbegun | ⟨-, -, hall⟩ := hq.restart hspawned
  · exact .inr hbegun
  · refine .inl ?_
    have hnone : q.workers = [] := List.eq_nil_iff_forall_not_mem.2 fun w hw => by
      obtain ⟨sent, hsent⟩ := (finished_iff.1 hfin).2 w hw
      have hw := hall w hw
      rw [hsent] at hw
      exact hw
    have hlen := hq.length_workers
    rw [hnone] at hlen
    exact List.eq_nil_of_length_eq_zero hlen.symm

/-- At the end each worker has come to what its task comes to alone, in a state that is alike to it
to where its task ends, and what every change within a frame keeps still holds. -/
theorem sent_of_finished (hI : Isolation tasks alike frame) (h : p.Fresh tasks)
    (hstart : ∀ t ∈ tasks, t.StartsAlike p.shared m) (hm : ∀ n, alike n m m) (hq : Uncut p q)
    (hfin : q.finished = true) :
    (∀ (n : Nat) (w : Worker σ ρ), q.workers[n]? = some w → ∃ t, tasks[n]? = some t ∧
      w.phase = .ended (t.run m).1 ∧ alike n q.shared (t.run m).2) ∧
    (p.workers ≠ [] → ∀ R : σ → Prop, (∀ n g g', frame n g g' → R g → R g') → R m →
      R q.shared) := by
  obtain hnone | hbegun := uncut_of_finished h hstart hq hfin
  · refine ⟨fun n w hw => ?_, fun hne => absurd hnone hne⟩
    have hlen := hq.length_workers
    rw [hnone] at hlen
    rw [List.eq_nil_of_length_eq_zero hlen] at hw
    cases hw
  · have habreast := h.abreast hI hm
    refine ⟨fun n w hw => ?_, fun _ R hR hm => habreast.keeps hI hR hm hbegun⟩
    obtain ⟨sent, hsent⟩ := (finished_iff.1 hfin).2 w (List.mem_of_getElem? hw)
    obtain ⟨t, ht, hphase⟩ := habreast.uncut hI hbegun n w hw
    rw [hsent] at hphase
    obtain ⟨rfl, halike⟩ := hphase
    exact ⟨t, ht, hsent, halike⟩

end

end Pool

end Assay
