import Assay.Run.Pool

/-!
# Pool — what one event does

`Move p e q` says by rules what `apply` computes: the event `e` takes the pool `p` to `q`
(`move_of_apply`, `apply_of_move`). Everything that holds along all runs is read off these rules.

* `Phase.Next`: how the phase of a worker can change. No event changes any other worker's phase in
  a way that `Next` does not allow, and none changes a seat (`Move.worker`).
* `endings`: the view of a pool on which results are accounted for: the seats of its workers, each
  with how the worker ended. An event leaves endings, channel and board alone, ends one worker
  silently, ends one worker that puts its result on the channel, or takes a result off the channel
  and puts it on the board (`Move.traffic`).
-/

namespace Assay

variable {σ ρ : Type}

namespace Phase

/-- How a worker has ended, none if it has not: with the result that it sent, if it sent one. -/
def ending? : Phase σ ρ → Option (Option ρ)
  | .ended sent => some sent
  | _           => none

/-- How a phase can follow another. -/
inductive Next : Phase σ ρ → Phase σ ρ → Prop where
  | stay (f : Phase σ ρ) : Next f f
  | queue (t : Task σ ρ) : Next (.spawned t) (.waiting t)
  | start (t : Task σ ρ) : Next (.spawned t) (.running t)
  | wake (t : Task σ ρ) : Next (.waiting t) (.running t)
  | advance (effect : σ → σ) (next : σ → Task σ ρ) (s : σ) :
      Next (.running (.step effect next)) (.running (next s))
  | send (r : ρ) : Next (.running (.done r)) (.ended (some r))
  | stop {f : Phase σ ρ} (h : f.ending? = none) : Next f (.ended none)

end Phase

namespace Pool

/-- What an event does, by rules. -/
inductive Move (p : Pool σ ρ) : Event → Pool σ ρ → Prop where
  | queue {i : Nat} {s : Seat} {t : Task σ ρ} (hw : p.workers[i]? = some ⟨s, .spawned t⟩)
      (hf : p.free = 0) :
      Move p (.ask i) { p.setPhase i (.waiting t) with queue := p.queue ++ [i] }
  | start {i k : Nat} {s : Seat} {t : Task σ ρ} (hw : p.workers[i]? = some ⟨s, .spawned t⟩)
      (hf : p.free = k + 1) :
      Move p (.ask i) { p.setPhase i (.running t) with free := k }
  | advance {i : Nat} {s : Seat} {effect : σ → σ} {next : σ → Task σ ρ}
      (hw : p.workers[i]? = some ⟨s, .running (.step effect next)⟩) :
      Move p (.advance i)
        { p.setPhase i (.running (next p.shared)) with shared := effect p.shared }
  | send {i : Nat} {s : Seat} {r : ρ} (hw : p.workers[i]? = some ⟨s, .running (.done r)⟩)
      (room : p.channel.length < p.capacity) :
      Move p (.finish i)
        { p.setPhase i (.ended (some r)) with channel := p.channel ++ [(s, r)] }.release
  | fall {i : Nat} {s : Seat} (hw : p.workers[i]? = some ⟨s, .running .dead⟩) :
      Move p (.finish i) (p.setPhase i (.ended none)).release
  | dieSpawned {i : Nat} {s : Seat} {t : Task σ ρ} (hw : p.workers[i]? = some ⟨s, .spawned t⟩) :
      Move p (.die i) (p.setPhase i (.ended none))
  | dieWaiting {i : Nat} {s : Seat} {t : Task σ ρ} (hw : p.workers[i]? = some ⟨s, .waiting t⟩) :
      Move p (.die i) { p.setPhase i (.ended none) with queue := p.queue.erase i }
  | dieRunning {i : Nat} {s : Seat} {t : Task σ ρ} (hw : p.workers[i]? = some ⟨s, .running t⟩) :
      Move p (.die i) (p.setPhase i (.ended none)).release
  | receive {s : Seat} {r : ρ} {rest : List (Seat × ρ)} (hc : p.channel = (s, r) :: rest) :
      Move p .receive { p with channel := rest, board := p.board.put s r }

/-- What an event does is one of the moves. -/
theorem move_of_apply {p q : Pool σ ρ} {e : Event} (h : p.apply e = some q) : Move p e q := by
  cases e with
  | ask i =>
    simp only [apply] at h
    split at h
    next s t hw =>
      split at h
      next hf => cases h; exact .queue hw hf
      next k hf => cases h; exact .start hw hf
    next => cases h
  | advance i =>
    simp only [apply] at h
    split at h
    next hw => cases h; exact .advance hw
    next => cases h
  | finish i =>
    simp only [apply] at h
    split at h
    next hw =>
      split at h
      next room => cases h; exact .send hw room
      next => cases h
    next hw => cases h; exact .fall hw
    next => cases h
  | die i =>
    simp only [apply] at h
    split at h
    next hw => cases h; exact .dieSpawned hw
    next hw => cases h; exact .dieWaiting hw
    next hw => cases h; exact .dieRunning hw
    next => cases h
  | receive =>
    simp only [apply] at h
    split at h
    next hc => cases h; exact .receive hc
    next => cases h

/-- Each move is what its event does. -/
theorem apply_of_move {p q : Pool σ ρ} {e : Event} (h : Move p e q) : p.apply e = some q := by
  cases h with
  | queue hw hf | start hw hf => simp only [apply, hw, hf]
  | send hw room => simp only [apply, hw, if_pos room]
  | advance hw | fall hw | dieSpawned hw | dieWaiting hw | dieRunning hw => simp only [apply, hw]
  | receive hc => simp only [apply, hc]

/-! ### One worker -/

@[simp] theorem workers_setPhase (p : Pool σ ρ) (i : Nat) (f : Phase σ ρ) :
    (p.setPhase i f).workers = p.workers.modify i fun w => { w with phase := f } := rfl

@[simp] theorem channel_release (p : Pool σ ρ) : p.release.channel = p.channel := by
  unfold release
  split <;> rfl

@[simp] theorem board_release (p : Pool σ ρ) : p.release.board = p.board := by
  unfold release
  split <;> rfl

/-- Whatever stands in a list after the change of one item, and what stood there before. -/
theorem getElem?_modify_inv {α : Type} {l : List α} {f : α → α} {i j : Nat} {a : α}
    (h : (l.modify i f)[j]? = some a) :
    ∃ b, l[j]? = some b ∧ (i = j ∧ a = f b ∨ i ≠ j ∧ a = b) := by
  rw [List.getElem?_modify] at h
  obtain ⟨b, hb, rfl⟩ := Option.map_eq_some_iff.1 h
  refine ⟨b, hb, ?_⟩
  by_cases hij : i = j
  · exact .inl ⟨hij, if_pos hij⟩
  · exact .inr ⟨hij, if_neg hij⟩

/-- The worker that `w` came from: it has the same seat, and its phase leads to that of `w`. -/
def CameFrom (p : Pool σ ρ) (i : Nat) (w : Worker σ ρ) : Prop :=
  ∃ v, p.workers[i]? = some v ∧ w.seat = v.seat ∧ v.phase.Next w.phase

/-- If one worker goes on to a next phase, all workers came from where they were. -/
theorem cameFrom_setPhase {p : Pool σ ρ} {i j : Nat} {s : Seat} {f g : Phase σ ρ}
    {w : Worker σ ρ} (hw : p.workers[i]? = some ⟨s, f⟩) (hn : f.Next g)
    (h : (p.setPhase i g).workers[j]? = some w) : p.CameFrom j w := by
  obtain ⟨v, hv, ⟨rfl, rfl⟩ | ⟨-, rfl⟩⟩ := getElem?_modify_inv h
  · obtain rfl := Option.some.inj (hv.symm.trans hw)
    exact ⟨_, hw, rfl, hn⟩
  · exact ⟨_, hv, rfl, .stay _⟩

/-- To give a permit back wakes one worker at most, and changes none otherwise. -/
theorem release_worker {p : Pool σ ρ} {j : Nat} {w : Worker σ ρ}
    (h : p.release.workers[j]? = some w) :
    p.workers[j]? = some w ∨
      ∃ s t, p.workers[j]? = some ⟨s, .waiting t⟩ ∧ w = ⟨s, .running t⟩ := by
  unfold release at h
  split at h
  · exact .inl h
  · obtain ⟨v, hv, ⟨-, rfl⟩ | ⟨-, rfl⟩⟩ := getElem?_modify_inv h
    · obtain ⟨s, f⟩ := v
      cases f with
      | waiting t => exact .inr ⟨s, t, hv, rfl⟩
      | spawned | running | ended => exact .inl hv
    · exact .inl hv

/-- A worker that ends is not woken by the permit that it gives back. -/
theorem cameFrom_release {p p' : Pool σ ρ} {i j : Nat} {s : Seat} {f : Phase σ ρ}
    {sent : Option ρ} {w : Worker σ ρ} (hw : p.workers[i]? = some ⟨s, f⟩)
    (hn : f.Next (.ended sent)) (h : p'.release.workers[j]? = some w)
    (hp' : p'.workers = (p.setPhase i (.ended sent)).workers) : p.CameFrom j w := by
  -- the worker that is woken waits, and so it is not the one that has just ended
  obtain h' | ⟨s', t, h', rfl⟩ := release_worker h
  · exact cameFrom_setPhase hw hn (hp' ▸ h')
  · obtain ⟨v, hv, ⟨-, e⟩ | ⟨-, rfl⟩⟩ := getElem?_modify_inv (hp' ▸ h')
    · cases e
    · exact ⟨_, hv, rfl, .wake t⟩

/-- No event changes the seat of a worker, nor its phase against the rules. -/
theorem Move.worker {p q : Pool σ ρ} {e : Event} (h : Move p e q) {j : Nat} {w : Worker σ ρ}
    (hj : q.workers[j]? = some w) : p.CameFrom j w := by
  cases h with
  | queue hw _ => exact cameFrom_setPhase hw (.queue _) hj
  | start hw _ => exact cameFrom_setPhase hw (.start _) hj
  | advance hw => exact cameFrom_setPhase hw (.advance _ _ _) hj
  | send hw _ => exact cameFrom_release hw (.send _) hj rfl
  | fall hw => exact cameFrom_release hw (.stop rfl) hj rfl
  | dieSpawned hw => exact cameFrom_setPhase hw (.stop rfl) hj
  | dieWaiting hw => exact cameFrom_setPhase hw (.stop rfl) hj
  | dieRunning hw => exact cameFrom_release hw (.stop rfl) hj rfl
  | receive _ => exact ⟨w, hj, rfl, .stay _⟩

/-! ### The accounts of a pool -/

/-- The seats of the workers, in order, each with how its worker has ended. -/
def endings (p : Pool σ ρ) : List (Seat × Option (Option ρ)) :=
  p.workers.map fun w => (w.seat, w.phase.ending?)

theorem getElem?_endings {p : Pool σ ρ} {i : Nat} {w : Worker σ ρ} (h : p.workers[i]? = some w) :
    p.endings[i]? = some (w.seat, w.phase.ending?) := by
  rw [endings, List.getElem?_map, h]
  rfl

theorem set_of_getElem? {α : Type} {l : List α} {i : Nat} {a : α} (h : l[i]? = some a) :
    l.set i a = l := by
  obtain ⟨hi, rfl⟩ := List.getElem?_eq_some_iff.1 h
  exact List.set_getElem_self hi

theorem modify_of_getElem? {α : Type} {l : List α} {i : Nat} {a : α} (h : l[i]? = some a)
    (f : α → α) : l.modify i f = l.set i (f a) := by
  have : Inhabited α := ⟨a⟩
  rw [List.modify_eq_set, h]
  rfl

/-- A change of one item that a view does not see. -/
theorem map_modify_of_eq {α β : Type} {f : α → α} {g : α → β} (h : ∀ a, g (f a) = g a)
    (l : List α) (i : Nat) : (l.modify i f).map g = l.map g := by
  induction l generalizing i with
  | nil => rw [List.modify_nil]
  | cons a l ih =>
    cases i with
    | zero => rw [List.modify_zero_cons, List.map_cons, List.map_cons, h]
    | succ i => rw [List.modify_succ_cons, List.map_cons, List.map_cons, ih]

/-- A worker's ending is that of the phase it goes on to. -/
theorem endings_setPhase {p : Pool σ ρ} {i : Nat} {s : Seat} {f : Phase σ ρ}
    (hw : p.workers[i]? = some ⟨s, f⟩) (g : Phase σ ρ) :
    (p.setPhase i g).endings = p.endings.set i (s, g.ending?) := by
  rw [endings, workers_setPhase, modify_of_getElem? hw, List.map_set]
  rfl

/-- A change between phases that are both not ended leaves the accounts alone. -/
theorem endings_setPhase_of_eq {p : Pool σ ρ} {i : Nat} {s : Seat} {f g : Phase σ ρ}
    (hw : p.workers[i]? = some ⟨s, f⟩) (h : g.ending? = f.ending?) :
    (p.setPhase i g).endings = p.endings := by
  rw [endings_setPhase hw, h]
  exact set_of_getElem? (getElem?_endings hw)

/-- A permit that is given back ends no worker. -/
@[simp] theorem endings_release (p : Pool σ ρ) : p.release.endings = p.endings := by
  unfold release
  split
  · rfl
  · refine map_modify_of_eq (fun w => ?_) p.workers _
    obtain ⟨s, f⟩ := w
    cases f <;> rfl

/-- What an event does to the accounts, the channel and the board of a pool. -/
inductive Traffic (p q : Pool σ ρ) : Prop where
  | quiet (he : q.endings = p.endings) (hc : q.channel = p.channel) (hb : q.board = p.board)
  | silent {i : Nat} {s : Seat} (at_ : p.endings[i]? = some (s, none))
      (he : q.endings = p.endings.set i (s, some none)) (hc : q.channel = p.channel)
      (hb : q.board = p.board)
  | send {i : Nat} {s : Seat} {r : ρ} (at_ : p.endings[i]? = some (s, none))
      (he : q.endings = p.endings.set i (s, some (some r))) (hc : q.channel = p.channel ++ [(s, r)])
      (hb : q.board = p.board)
  | receive {s : Seat} {r : ρ} (he : q.endings = p.endings) (hc : p.channel = (s, r) :: q.channel)
      (hb : q.board = p.board.put s r)

/-- Each event ends at most one worker, and sends or takes at most one message. -/
theorem Move.traffic {p q : Pool σ ρ} {e : Event} (h : Move p e q) : Traffic p q := by
  cases h with
  | queue hw _ | start hw _ | advance hw =>
    exact .quiet (endings_setPhase_of_eq hw rfl) rfl rfl
  | send hw _ =>
    refine .send (getElem?_endings hw) ?_ (channel_release _) (board_release _)
    exact (endings_release _).trans (endings_setPhase hw _)
  | fall hw | dieRunning hw =>
    refine .silent (getElem?_endings hw) ?_ (channel_release _) (board_release _)
    exact (endings_release _).trans (endings_setPhase hw _)
  | dieSpawned hw | dieWaiting hw =>
    exact .silent (getElem?_endings hw) (endings_setPhase hw _) rfl rfl
  | receive hc => exact .receive rfl hc rfl

end Pool

end Assay
