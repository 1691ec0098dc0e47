import Assay.Proofs.Pool.Draining
import Assay.Proofs.Pool.Isolation

/-!
# Pool — who goes first

`Trace start es p` says that the events `es`, one after another, lead from `start` to `p`, and
`asked es` is the order in which workers asked for their permits in them. Permits go to the workers
in that order: nobody who has a permit has asked after somebody who still waits for one
(`Orderly.fair`), however many permits there are and whoever is cut off.

With a single permit at most one worker runs (`runs_unique`), and when one runs all that asked
before it have ended (`ended_of_before`).
-/

namespace Assay.Pool

variable {σ ρ : Type} {start p q : Pool σ ρ} {es : List Event} {e : Event} {as : List Nat}
  {i j n : Nat}

/-! ### Events in a row -/

/-- The pools that some events, one after another, lead to from a given one. -/
inductive Trace (start : Pool σ ρ) : List Event → Pool σ ρ → Prop where
  | nil : Trace start [] start
  | snoc {es : List Event} {p q : Pool σ ρ} {e : Event} (h : Trace start es p) (s : Move p e q) :
      Trace start (es ++ [e]) q

theorem Trace.reachable (h : Trace start es p) : Reachable start p := by
  induction h with
  | nil => exact .refl
  | snoc _ hm ih => exact .more ih (apply_of_move hm)

theorem Trace.length_workers (h : Trace start es p) : p.workers.length = start.workers.length := by
  induction h with
  | nil => rfl
  | snoc _ hm ih => exact hm.length_workers.trans ih

theorem Trace.append {es' : List Event} (h : Trace start es p) (h' : Trace p es' q) :
    Trace start (es ++ es') q := by
  induction h' with
  | nil => exact (List.append_nil es).symm ▸ h
  | snoc _ hm ih => exact List.append_assoc .. ▸ ih.snoc hm

theorem trace_of_move (hm : Move p e q) : Trace p [e] q := Trace.nil.snoc hm

/-- Events that can all happen, one after another. -/
theorem trace_play (h : (es.foldlM apply start).isSome) : Trace start es (start.play es) := by
  induction es generalizing start with
  | nil => exact .nil
  | cons e es ih =>
    obtain ⟨q, hq⟩ := Option.isSome_iff_exists.1 h
    obtain ⟨p, hp, hrest⟩ := Option.bind_eq_some_iff.1 hq
    have hplay : start.play (e :: es) = p.play es := by simp [play, hp]
    rw [hplay]
    exact (trace_of_move (move_of_apply hp)).append (ih (Option.isSome_iff_exists.2 ⟨q, hrest⟩))

/-- The events of a schedule that can happen. -/
theorem exists_trace_play (p : Pool σ ρ) (schedule : List Event) :
    ∃ es, Trace p es (p.play schedule) ∧ es.Sublist schedule := by
  induction schedule generalizing p with
  | nil => exact ⟨[], .nil, .slnil⟩
  | cons e schedule ih =>
    cases hq : p.apply e with
    | none =>
      have hplay : p.play (e :: schedule) = p.play schedule := by simp [play, hq]
      obtain ⟨es, ht, hes⟩ := ih p
      exact ⟨es, hplay ▸ ht, hes.cons e⟩
    | some q =>
      have hplay : p.play (e :: schedule) = q.play schedule := by simp [play, hq]
      obtain ⟨es, ht, hes⟩ := ih q
      exact ⟨e :: es, hplay ▸ (trace_of_move (move_of_apply hq)).append ht, hes.cons_cons e⟩

theorem exists_trace_of_uncut (h : Uncut start p) :
    ∃ es, Trace start es p ∧ ∀ e ∈ es, ¬ e.Cuts := by
  induction h with
  | refl => exact ⟨[], .nil, nofun⟩
  | more _ he hm ih =>
    obtain ⟨es, ht, hcut⟩ := ih
    exact ⟨_, ht.snoc hm, List.forall_mem_append.2 ⟨hcut, List.forall_mem_singleton.2 he⟩⟩

/-- The worker that asks in an event. -/
def Event.asker : Event → List Nat
  | .ask i => [i]
  | _      => []

/-- The workers that ask in some events, in order. -/
def asked (es : List Event) : List Nat := es.flatMap Event.asker

theorem asked_snoc (es : List Event) (e : Event) : asked (es ++ [e]) = asked es ++ e.asker := by
  simp [asked]

/-! ### Who runs -/

/-- Whether a worker has a permit, by its number. -/
def Runs (p : Pool σ ρ) (i : Nat) : Prop := ∃ s t, p.workers[i]? = some ⟨s, .running t⟩

/-- Whether a worker has ended, by its number. -/
def HasEnded (p : Pool σ ρ) (i : Nat) : Prop := ∃ s sent, p.workers[i]? = some ⟨s, .ended sent⟩

/-- At the end nobody runs. -/
theorem not_runs_of_finished (hfin : p.finished = true) : ¬ p.Runs i := by
  rintro ⟨s, t, hw⟩
  obtain ⟨sent, hended⟩ := (finished_iff.1 hfin).2 _ (List.mem_of_getElem? hw)
  cases hended

/-- Workers that are not equally far are not the same. -/
theorem ne_of_effort_ne {s s' : Seat} {f g : Phase σ ρ} (hi : p.workers[i]? = some ⟨s, f⟩)
    (hj : p.workers[j]? = some ⟨s', g⟩) (h : f.effort ≠ g.effort) : i ≠ j := by
  rintro rfl
  obtain ⟨rfl, rfl⟩ := Worker.mk.inj (Option.some.inj (hi.symm.trans hj))
  exact h rfl

theorem getElem?_setPhase_self {s : Seat} {f : Phase σ ρ} (hw : p.workers[i]? = some ⟨s, f⟩)
    (g : Phase σ ρ) : (p.setPhase i g).workers[i]? = some ⟨s, g⟩ := by
  rw [setPhase_workers_eq hw, List.getElem?_set_self (List.getElem?_eq_some_iff.1 hw).1]

theorem getElem?_setPhase_ne (h : i ≠ j) (g : Phase σ ρ) :
    (p.setPhase i g).workers[j]? = p.workers[j]? :=
  List.getElem?_modify_ne _ _ h

/-- To give a permit back changes no worker that does not wait for it. -/
theorem getElem?_release {w : Worker σ ρ} (h : p.workers[i]? = some w)
    (hw : ¬ w.phase.IsWaiting) : p.release.workers[i]? = some w := by
  unfold release
  split
  · exact h
  next k r hq =>
    obtain ⟨s, f⟩ := w
    show (p.workers.modify k _)[i]? = _
    by_cases hk : k = i
    · rw [hk, List.getElem?_modify_eq, h]
      cases f with
      | waiting t => exact absurd trivial hw
      | spawned | running | ended => rfl
    · rw [List.getElem?_modify_ne _ _ hk, h]

theorem getElem?_release_head {k : Nat} {r : List Nat} (hq : p.queue = k :: r) {s : Seat}
    {t : Task σ ρ} (hw : p.workers[k]? = some ⟨s, .waiting t⟩) :
    p.release.workers[k]? = some ⟨s, .running t⟩ := by
  unfold release
  rw [hq]
  show (p.workers.modify k _)[k]? = _
  rw [List.getElem?_modify_eq, hw]
  rfl

/-- A permit that is given back goes to the first that waits. -/
theorem runs_release (h : p.release.Runs i) :
    p.Runs i ∨ p.queue = i :: p.release.queue := by
  unfold release at h ⊢
  split at h
  next => exact .inl h
  next k r hq =>
    obtain ⟨s, t, hi⟩ := h
    obtain ⟨v, hv, ⟨rfl, -⟩ | ⟨-, rfl⟩⟩ := getElem?_modify_inv hi
    · exact .inr hq
    · exact .inl ⟨s, t, hv⟩

theorem queue_release (p : Pool σ ρ) : p.release.queue = p.queue.tail := by
  unfold release
  split <;> simp_all [wake]

/-! ### What one event does to the line -/

/-- The line only moves up, but for the worker that asks. -/
theorem Move.queue_sublist (hm : Move p e q) : q.queue.Sublist (p.queue ++ e.asker) := by
  have hkeep : p.queue.Sublist (p.queue ++ e.asker) := List.sublist_append_left _ _
  cases hm with
  | queue => exact List.Sublist.refl _
  | start | advance | dieSpawned | receive => exact hkeep
  | send | fall | dieRunning =>
    rw [queue_release]
    exact (List.tail_sublist _).trans hkeep
  | dieWaiting => exact List.erase_sublist.trans hkeep

/-- A worker that has not begun goes on waiting for its first turn, asks, or is cut off. -/
theorem Move.spawned (hm : Move p e q) {s : Seat} {t : Task σ ρ}
    (h : p.workers[i]? = some ⟨s, .spawned t⟩) :
    i ∈ e.asker ∨ q.workers[i]? = some ⟨s, .spawned t⟩ ∨ e = .die i ∧ q.HasEnded i := by
  have hne : ∀ {k : Nat} {s' : Seat} {f : Phase σ ρ}, p.workers[k]? = some ⟨s', f⟩ →
      f.effort = 1 → k ≠ i := fun hk hf =>
    ne_of_effort_ne hk h (hf.trans_ne (Nat.succ_ne_self 1).symm)
  cases hm with
  | @queue k _ _ hw | @start k _ _ _ hw =>
    by_cases hk : k = i
    · exact .inl (hk ▸ List.mem_singleton_self _)
    · exact .inr (.inl ((getElem?_setPhase_ne hk _).trans h))
  | advance hw => exact .inr (.inl ((getElem?_setPhase_ne (hne hw rfl) _).trans h))
  | send hw _ | fall hw | dieRunning hw =>
    exact .inr (.inl (getElem?_release ((getElem?_setPhase_ne (hne hw rfl) _).trans h) id))
  | @dieSpawned k _ _ hw =>
    by_cases hk : k = i
    · subst hk
      exact .inr (.inr ⟨rfl, _, _, getElem?_setPhase_self hw _⟩)
    · exact .inr (.inl ((getElem?_setPhase_ne hk _).trans h))
  | dieWaiting hw => exact .inr (.inl ((getElem?_setPhase_ne (hne hw rfl) _).trans h))
  | receive => exact .inr (.inl h)

/-- Who waits has waited before, or has just asked. -/
theorem Move.waits (hm : Move p e q) (h : q.Waits i) : p.Waits i ∨ i ∈ e.asker := by
  obtain ⟨s, t, hi⟩ := isWaiting_of_waits h
  obtain ⟨⟨s', f⟩, hv, -, hn⟩ := hm.worker hi
  cases hn with
  | stay => exact .inl ⟨_, hv, trivial⟩
  | queue t =>
    obtain hask | hsame | ⟨-, _, _, hend⟩ := hm.spawned hv
    · exact .inr hask
    · cases hi.symm.trans hsame
    · cases hi.symm.trans hend

/-- Who comes to run has run before, is the first in the line, or has just asked when nobody was in
it. -/
theorem Move.runs (hm : Move p e q) (h : q.Runs j) :
    p.Runs j ∨ p.queue = j :: q.queue ∨ e = .ask j ∧ p.free ≠ 0 := by
  have hset : ∀ {k : Nat} {f : Phase σ ρ}, (p.setPhase k f).Runs j → k = j ∨ p.Runs j := by
    rintro k f ⟨s, t, hj⟩
    by_cases hk : k = j
    · exact .inl hk
    · exact .inr ⟨s, t, (getElem?_setPhase_ne hk f).symm.trans hj⟩
  have hout : ∀ {k : Nat} {s : Seat} {f g : Phase σ ρ}, p.workers[k]? = some ⟨s, f⟩ →
      g.permits = 0 → (p.setPhase k g).Runs j → p.Runs j := by
    rintro k s f g hk hg hr
    obtain rfl | hr' := hset hr
    · obtain ⟨s', t, hj⟩ := hr
      rw [getElem?_setPhase_self hk] at hj
      obtain ⟨rfl, rfl⟩ := Worker.mk.inj (Option.some.inj hj)
      cases hg
    · exact hr'
  cases hm with
  | queue hw => exact .inl (hout (g := .waiting _) hw rfl h)
  | start hw hf =>
    obtain rfl | h := hset h
    · exact .inr (.inr ⟨rfl, by omega⟩)
    · exact .inl h
  | advance hw =>
    obtain rfl | h := hset h
    · exact .inl ⟨_, _, hw⟩
    · exact .inl h
  | send hw _ => exact (runs_release h).imp (hout (g := .ended _) hw rfl) .inl
  | fall hw | dieRunning hw => exact (runs_release h).imp (hout (g := .ended _) hw rfl) .inl
  | dieSpawned hw | dieWaiting hw => exact .inl (hout (g := .ended _) hw rfl h)
  | receive => exact .inl h

/-! ### Nobody is overtaken -/

/-- Whether the workers of `as`, and no others, have asked for a permit, in this order, and none of
them has one who asked after somebody that waits. -/
structure Orderly (as : List Nat) (p : Pool σ ρ) : Prop where
  once : as.Nodup
  exist : ∀ i ∈ as, i < p.workers.length
  spawned : ∀ i s t, p.workers[i]? = some ⟨s, .spawned t⟩ → i ∉ as
  began : ∀ i, p.Waits i ∨ p.Runs i → i ∈ as
  line : p.queue.Sublist as
  fair : ∀ i j, [i, j].Sublist as → p.Runs j → ¬ p.Waits i

/-- Of two items of a list without doubles only one is before the other. -/
theorem not_sublist_swap {α : Type} {l : List α} {a b : α} (hl : l.Nodup)
    (h : [a, b].Sublist l) : ¬ [b, a].Sublist l := by
  induction l with
  | nil => cases h
  | cons c l ih =>
    obtain ⟨hc, hl⟩ := List.nodup_cons.1 hl
    intro h'
    cases h with
    | cons _ h =>
      cases h' with
      | cons _ h' => exact ih hl h h'
      | cons_cons _ h' => exact hc (h.subset (.tail _ (.head _)))
    | cons_cons _ h =>
      cases h' with
      | cons _ h' => exact hc (h'.subset (.tail _ (.head _)))
      | cons_cons _ h' => exact hc (h.subset (.head _))

/-- Two items, one before the other, in two lists in a row. -/
theorem sublist_pair_append {α : Type} {l l' : List α} {a b : α} (h : [a, b].Sublist (l ++ l')) :
    [a, b].Sublist l ∨ a ∈ l ∧ b ∈ l' ∨ [a, b].Sublist l' := by
  obtain ⟨l₁, l₂, he, h₁, h₂⟩ := List.sublist_append_iff.1 h
  obtain ⟨rfl, rfl⟩ | ⟨x, rfl, hx⟩ := List.cons_eq_append_iff.1 he
  · exact .inr (.inr h₂)
  obtain ⟨rfl, rfl⟩ | ⟨y, rfl, hy⟩ := List.cons_eq_append_iff.1 hx
  · exact .inr (.inl ⟨h₁.subset (.head _), h₂.subset (.head _)⟩)
  · obtain ⟨rfl, rfl⟩ := List.append_eq_nil_iff.1 hy.symm
    exact .inl h₁

/-- Who asks has not asked before, and has begun then. -/
theorem Orderly.asker (h : Orderly as p) (hm : Move p e q) (hi : i ∈ e.asker) :
    e.asker = [i] ∧ i ∉ as ∧ i < p.workers.length ∧
      ∀ s t, q.workers[i]? ≠ some ⟨s, .spawned t⟩ := by
  have hset : ∀ {s : Seat} {f g : Phase σ ρ}, p.workers[i]? = some ⟨s, f⟩ → g.effort = 1 →
      ∀ s t, (p.setPhase i g).workers[i]? ≠ some ⟨s, .spawned t⟩ := by
    intro s f g hw hg s' t hspawned
    rw [getElem?_setPhase_self hw] at hspawned
    obtain ⟨rfl, rfl⟩ := Worker.mk.inj (Option.some.inj hspawned)
    cases hg
  cases hm with
  | queue hw =>
    obtain rfl := List.mem_singleton.1 hi
    have hlen := (List.getElem?_eq_some_iff.1 hw).1
    exact ⟨rfl, h.spawned _ _ _ hw, hlen, hset (g := .waiting _) hw rfl⟩
  | start hw =>
    obtain rfl := List.mem_singleton.1 hi
    have hlen := (List.getElem?_eq_some_iff.1 hw).1
    exact ⟨rfl, h.spawned _ _ _ hw, hlen, hset (g := .running _) hw rfl⟩
  | advance | send | fall | dieSpawned | dieWaiting | dieRunning | receive => cases hi

theorem Orderly.move (h : Orderly as p) (hp : Permits n p) (hm : Move p e q) :
    Orderly (as ++ e.asker) q where
  once := by
    refine List.nodup_append.2 ⟨h.once, ?_, fun i hi j hj hij => (h.asker hm hj).2.1 (hij ▸ hi)⟩
    cases e <;> simp [Event.asker]
  exist i hi := by
    rw [hm.length_workers]
    exact (List.mem_append.1 hi).elim (h.exist i) fun hi => (h.asker hm hi).2.2.1
  spawned i s t hw hi := by
    obtain hi | hi := List.mem_append.1 hi
    · obtain ⟨⟨s', f⟩, hv, -, hn⟩ := hm.worker hw
      cases hn
      exact h.spawned i _ _ hv hi
    · exact (h.asker hm hi).2.2.2 s t hw
  began i hi := by
    refine List.mem_append.2 ?_
    obtain hi | hi := hi
    · exact (hm.waits hi).imp_left fun hi => h.began i (.inl hi)
    · obtain hi | hq | ⟨rfl, -⟩ := hm.runs hi
      · exact .inl (h.began i (.inr hi))
      · exact .inl (h.line.subset (hq ▸ List.mem_cons_self))
      · exact .inr (List.mem_singleton_self i)
  line := hm.queue_sublist.trans (h.line.append_right _)
  fair i j hij hj hi := by
    -- who asks is the last of all that have asked
    have hbefore : [i, j].Sublist as ∨ i ∈ as ∧ j ∈ e.asker := by
      obtain hij | hij | hij := sublist_pair_append hij
      · exact .inl hij
      · exact .inr hij
      · have hone := (h.asker hm (hij.subset (.head _))).1
        rw [hone] at hij
        exact absurd hij.length_le (by simp)
    have hi₀ : i ∈ as := hbefore.elim (fun hij => hij.subset (.head _)) And.left
    have hwait : p.Waits i :=
      (hm.waits hi).resolve_right fun hask => (h.asker hm hask).2.1 hi₀
    have hold : j ∈ as → [i, j].Sublist as := fun hj₀ =>
      hbefore.resolve_right fun hlast => (h.asker hm hlast.2).2.1 hj₀
    obtain hj | hq | ⟨-, hfree⟩ := hm.runs hj
    · exact h.fair i j (hold (h.began j (.inr hj))) hj hwait
    · have hij := hold (h.line.subset (hq ▸ List.mem_cons_self))
      have hi := (hp.queued i).2 hwait
      rw [hq, List.mem_cons] at hi
      obtain rfl | hi := hi
      · exact not_sublist_swap h.once hij hij
      · have hji : [j, i].Sublist p.queue := by
          rw [hq]
          exact (List.singleton_sublist.2 hi).cons_cons j
        exact not_sublist_swap h.once hij (hji.trans h.line)
    · exact hfree (hp.busy (List.ne_nil_of_mem ((hp.queued i).2 hwait)))

/-- Where every worker is still to ask, nobody has been overtaken. -/
theorem orderly_of_spawned (h : ∀ w ∈ start.workers, ∃ t, w.phase = .spawned t)
    (hq : start.queue = []) : Orderly [] start where
  once := .nil
  exist _ hi := nomatch hi
  spawned _ _ _ _ hi := nomatch hi
  began i hi := by
    have hphase : ∀ {s f}, start.workers[i]? = some ⟨s, f⟩ → ∃ t, f = .spawned t :=
      fun hw => h _ (List.mem_of_getElem? hw)
    obtain hi | ⟨s, t, hw⟩ := hi
    · obtain ⟨s, t, hw⟩ := isWaiting_of_waits hi
      obtain ⟨_, ht⟩ := hphase hw
      cases ht
    · obtain ⟨_, ht⟩ := hphase hw
      cases ht
  line := by rw [hq]
  fair _ _ hij := nomatch hij

/-- Unless it is cut off, a worker that has not asked is still to begin. -/
theorem spawned_of_not_asked (h : ∀ w ∈ start.workers, ∃ t, w.phase = .spawned t)
    (ht : Trace start es p) (hcut : ∀ e ∈ es, ¬ e.Cuts) (hi : i < p.workers.length)
    (hask : i ∉ asked es) : ∃ s t, p.workers[i]? = some ⟨s, .spawned t⟩ := by
  induction ht with
  | nil =>
    obtain ⟨t, hphase⟩ := h _ (List.getElem_mem hi)
    exact ⟨_, t, by rw [List.getElem?_eq_getElem hi, ← hphase]⟩
  | snoc ht hm ih =>
    obtain ⟨hes, he⟩ := List.forall_mem_append.1 hcut
    rw [asked_snoc, List.mem_append, not_or] at hask
    obtain ⟨s, t, hw⟩ := ih hes (hm.length_workers ▸ hi) hask.1
    obtain hnow | hsame | ⟨rfl, -⟩ := hm.spawned hw
    · exact absurd hnow hask.2
    · exact ⟨s, t, hsame⟩
    · exact absurd trivial (he _ (List.mem_singleton_self _))

/-- Where nobody is cut off, all have asked by the end, each once. -/
theorem asked_perm (h : ∀ w ∈ start.workers, ∃ t, w.phase = .spawned t)
    (ho : Orderly (asked es) p) (ht : Trace start es p) (hcut : ∀ e ∈ es, ¬ e.Cuts)
    (hfin : p.finished = true) : (asked es).Perm (List.range p.workers.length) := by
  refine (List.perm_ext_iff_of_nodup ho.once List.nodup_range).2 fun i => ?_
  rw [List.mem_range]
  refine ⟨ho.exist i, fun hi => ?_⟩
  by_contra hask
  obtain ⟨s, t, hw⟩ := spawned_of_not_asked h ht hcut hi hask
  obtain ⟨sent, hend⟩ := (finished_iff.1 hfin).2 _ (List.mem_of_getElem? hw)
  cases hend

/-- A worker that has asked waits, runs or has ended. -/
theorem Orderly.cases (h : Orderly as p) (hi : i ∈ as) : p.Waits i ∨ p.Runs i ∨ p.HasEnded i := by
  cases hw : p.workers[i]? with
  | none => exact absurd (h.exist i hi) (Nat.not_lt.2 (List.getElem?_eq_none_iff.1 hw))
  | some w =>
    obtain ⟨s, f⟩ := w
    cases f with
    | spawned t => exact absurd hi (h.spawned i s t hw)
    | waiting t => exact .inl ⟨_, hw, trivial⟩
    | running t => exact .inr (.inl ⟨s, t, hw⟩)
    | ended sent => exact .inr (.inr ⟨s, sent, hw⟩)

/-- A worker has a permit from when it has left the line until it has ended. -/
theorem Orderly.runs_iff (h : Orderly as p) (hp : Permits n p) :
    p.Runs i ↔ i ∈ as ∧ i ∉ p.queue ∧ ¬ p.HasEnded i := by
  constructor
  · rintro ⟨s, t, hw⟩
    refine ⟨h.began i (.inr ⟨s, t, hw⟩), fun hi => ?_, fun ⟨_, _, hw'⟩ => ?_⟩
    · obtain ⟨_, _, hw'⟩ := isWaiting_of_waits ((hp.queued i).1 hi)
      cases hw.symm.trans hw'
    · cases hw.symm.trans hw'
  · rintro ⟨hi, hq, hend⟩
    obtain hwait | hrun | hend' := h.cases hi
    · exact absurd ((hp.queued i).2 hwait) hq
    · exact hrun
    · exact absurd hend' hend

/-! ### A single permit -/

/-- No more workers run than permits are held. -/
theorem length_le_held {is : List Nat} (hd : is.Nodup) (h : ∀ i ∈ is, p.Runs i) :
    is.length ≤ p.held := by
  induction is generalizing p with
  | nil => exact Nat.zero_le _
  | cons i is ih =>
    obtain ⟨hi, hd⟩ := List.nodup_cons.1 hd
    obtain ⟨s, t, hw⟩ := h i List.mem_cons_self
    -- take the permit of one of them away
    have hheld : (p.setPhase i (.ended none)).held + 1 = p.held + 0 := held_setPhase hw _
    have hrest := ih (p := p.setPhase i (.ended none)) hd fun j hj => by
      obtain ⟨s', t', hw'⟩ := h j (.tail _ hj)
      have hne : i ≠ j := fun he => hi (he ▸ hj)
      exact ⟨s', t', (getElem?_setPhase_ne hne _).trans hw'⟩
    rw [List.length_cons]
    omega

/-- A permit is free of a single one only if nobody runs. -/
theorem free_eq_zero (hp : Permits 1 p) (hi : p.Runs i) : p.free = 0 := by
  have hlen := length_le_held (p := p) (List.nodup_singleton i) (by simp [hi])
  have hacc := hp.account
  rw [List.length_singleton] at hlen
  omega

theorem runs_unique (hp : Permits 1 p) (hi : p.Runs i) (hj : p.Runs j) : i = j := by
  by_contra hne
  have hlen : [i, j].length ≤ p.held := length_le_held (by simp [hne]) (by simp [hi, hj])
  have hacc := hp.account
  simp only [List.length_cons, List.length_nil] at hlen
  omega

/-- With a single permit, all that asked before one that runs have ended. -/
theorem Orderly.ended_of_before (h : Orderly as p) (hp : Permits 1 p) (hij : [i, j].Sublist as)
    (hj : p.Runs j) : p.HasEnded i := by
  obtain hwait | hrun | hend := h.cases (hij.subset (.head _))
  · exact absurd hwait (h.fair i j hij hj)
  · obtain rfl := runs_unique hp hrun hj
    exact absurd hij (not_sublist_swap h.once hij)
  · exact hend

end Assay.Pool
