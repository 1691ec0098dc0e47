import Assay.Proofs.Pool.Unwinding
import Mathlib.Logic.Function.Basic

/-!
# Pool — who holds something

With its first step a task may come to hold something, which it has until its last step. An
invariant `I held s` says of the state `s` what goes with the workers that hold something.
`Task.Keeps` says that every step of a task in the middle keeps it, whoever else holds something,
and `Task.Enters` that the first step of a task does.

If all tasks do, and every unwinding gives back what was held, then the invariant holds all along
and nobody holds anything but workers that run (`Kept.history`, `Kept.runs_or_cutOff`). Where
workers vanish when they are cut off, those may go on to hold what they had (`Kept.trace`).
-/

namespace Assay

variable {σ ρ α β : Type} {I : (Nat → Bool) → σ → Prop} {i : Nat} {own : Bool}

namespace Task

/-- Whether every step of the `i`-th task keeps the invariant, and its end is as `Q` says; `own`
says whether it holds something, as it does at every step. -/
def Keeps (I : (Nat → Bool) → σ → Prop) (i : Nat) (Q : α → Bool → Prop) : Bool → Task σ α → Prop
  | own, .done a           => Q a own
  | own, .dead             => own = false
  | own, .step effect next => own = true ∧ ∀ held s, held i = true → I held s →
    ∃ own', I (Function.update held i own') (effect s) ∧ (next s).Keeps I i Q own'

/-- The same from the first step on, at which it holds nothing. -/
def Enters (I : (Nat → Bool) → σ → Prop) (i : Nat) (Q : α → Bool → Prop) : Task σ α → Prop
  | .done a           => Q a false
  | .dead             => True
  | .step effect next => ∀ held s, held i = false → I held s →
    ∃ own', I (Function.update held i own') (effect s) ∧ (next s).Keeps I i Q own'

variable {Q : α → Bool → Prop} {R : β → Bool → Prop} {t : Task σ α}

theorem keeps_bind {f : α → Task σ β} (ht : t.Keeps I i Q own)
    (hf : ∀ a own, Q a own → (f a).Keeps I i R own) : (t >>= f).Keeps I i R own := by
  show (t.bind f).Keeps I i R own
  induction t generalizing own with
  | done a => exact hf a own ht
  | dead => exact ht
  | step effect next ih =>
    obtain ⟨hown, hstep⟩ := ht
    refine ⟨hown, fun held s hheld hI => ?_⟩
    obtain ⟨own', hI', hnext⟩ := hstep held s hheld hI
    exact ⟨own', hI', ih s hnext⟩

theorem keeps_map {g : α → β} (ht : t.Keeps I i (fun a => R (g a)) own) :
    (g <$> t).Keeps I i R own := by
  rw [map_eq_pure_bind]
  exact keeps_bind ht fun _ _ h => h

theorem keeps_act {f : σ → α × σ} (h : ∀ held s, held i = true → I held s →
    ∃ own, I (Function.update held i own) (f s).2 ∧ Q (f s).1 own) :
    (act f).Keeps I i Q true := ⟨rfl, h⟩

/-- A step that changes nothing that counts. -/
theorem keeps_act_same {f : σ → α × σ} (h : ∀ held s, held i = true → I held s →
    I held (f s).2 ∧ Q (f s).1 true) : (act f).Keeps I i Q true := by
  refine keeps_act fun held s hheld hI => ⟨true, ?_, (h held s hheld hI).2⟩
  rw [← hheld, Function.update_eq_self]
  exact (h held s hheld hI).1

theorem keeps_look {f : σ → α} (h : ∀ a, Q a true) : (look f).Keeps I i Q true :=
  keeps_act_same (f := fun s => (f s, s)) fun _ _ _ hI => ⟨hI, h _⟩

/-- A task that may come to hold something with its first step. -/
theorem enters_act_bind {f : σ → α × σ} {g : α → Task σ β}
    (h : ∀ held s, held i = false → I held s →
      ∃ own, I (Function.update held i own) (f s).2 ∧ Q (f s).1 own)
    (hg : ∀ a own, Q a own → (g a).Keeps I i R own) : (act f >>= g).Enters I i R := by
  intro held s hheld hI
  obtain ⟨own, hI', hQ⟩ := h held s hheld hI
  exact ⟨own, hI', hg _ _ hQ⟩

end Task

/-- Whether a worker keeps the invariant with the steps that are left to it; `began` says whether it
has taken one. One that has ended holds nothing unless it was cut off. -/
def Phase.Keeps (I : (Nat → Bool) → σ → Prop) (i : Nat) (began cut : Prop) (own : Bool) :
    Phase σ ρ → Prop
  | .spawned t | .waiting t =>
    ¬ began ∧ own = false ∧ t.Enters I i (fun _ own => own = false)
  | .running t =>
    began ∧ t.Keeps I i (fun _ own => own = false) own ∨
      ¬ began ∧ own = false ∧ t.Enters I i (fun _ own => own = false)
  | .ended _ => own = true → cut

theorem Phase.Keeps.mono {f : Phase σ ρ} {began cut cut' : Prop} (h : f.Keeps I i began cut own)
    (hcut : cut → cut') : f.Keeps I i began cut' own := by
  cases f with
  | spawned | waiting | running => exact h
  | ended sent => exact fun hown => hcut (h hown)

namespace Pool

variable {start p q : Pool σ ρ} {es : List Event} {e : Event} {cut cut' : Nat → Prop}
  {held : Nat → Bool}

/-- Whether a pool keeps the invariant after some events, with these workers holding something and
those allowed to be cut off. -/
structure Kept (I : (Nat → Bool) → σ → Prop) (es : List Event) (cut : Nat → Prop)
    (held : Nat → Bool) (p : Pool σ ρ) : Prop where
  state : I held p.shared
  workers : ∀ (i : Nat) (w : Worker σ ρ), p.workers[i]? = some w →
    w.phase.Keeps I i (.advance i ∈ es) (cut i) (held i)
  beyond : ∀ i, p.workers.length ≤ i → held i = false

namespace Kept

theorem runs_or_cutOff (h : p.Kept I es cut held) (hi : held i = true) : p.Runs i ∨ cut i := by
  have hlt : i < p.workers.length := by
    by_contra hle
    have hfalse := h.beyond i (Nat.not_lt.1 hle)
    rw [hi] at hfalse
    cases hfalse
  have hw := List.getElem?_eq_getElem hlt
  have hkeeps := h.workers i _ hw
  cases hphase : p.workers[i].phase with
  | spawned t | waiting t =>
    rw [hphase] at hkeeps
    cases hi.symm.trans hkeeps.2.1
  | running t => exact .inl ⟨_, t, hw.trans (by rw [← hphase])⟩
  | ended sent =>
    rw [hphase] at hkeeps
    exact .inr (hkeeps hi)

theorem mono (h : p.Kept I es cut held) (hcut : ∀ i, cut i → cut' i) :
    p.Kept I es cut' held where
  state := h.state
  workers i w hw := (h.workers i w hw).mono (hcut i)
  beyond := h.beyond

/-- Who is at the end of its task holds nothing. -/
theorem own_of_end {s : Seat} {t : Task σ ρ} (h : p.Kept I es cut held)
    (hw : p.workers[i]? = some ⟨s, .running t⟩) (hend : ¬ Midway es p i) : held i = false := by
  obtain ⟨hbegan, hkeeps⟩ | ⟨-, hown, -⟩ := h.workers i _ hw
  · cases t with
    | done r => exact hkeeps
    | dead => exact hkeeps
    | step effect next => exact absurd ⟨hbegan, s, effect, next, hw⟩ hend
  · exact hown

/-- A worker that comes to another phase, after more events, and who holds something then. -/
theorem setPhase {es' : List Event} {held' : Nat → Bool} {s : Seat} {f g : Phase σ ρ}
    (h : p.Kept I es cut held) (hw : p.workers[i]? = some ⟨s, f⟩)
    (hq : q.workers = (p.setPhase i g).workers) (hstate : I held' q.shared)
    (hothers : ∀ j, i ≠ j → held' j = held j ∧ (.advance j ∈ es' ↔ .advance j ∈ es))
    (hg : g.Keeps I i (.advance i ∈ es') (cut i) (held' i)) : q.Kept I es' cut held' where
  state := hstate
  workers j w hj := by
    obtain ⟨v, hv, ⟨rfl, rfl⟩ | ⟨hne, rfl⟩⟩ := getElem?_modify_inv (hq ▸ hj)
    · exact hg
    · obtain ⟨hheld, hes⟩ := hothers j hne
      rw [hheld, hes]
      exact h.workers j _ hv
  beyond j hj := by
    have hlen : q.workers.length = p.workers.length := by
      rw [hq, setPhase_workers_eq hw, List.length_set]
    rw [hlen] at hj
    have hne : i ≠ j := by
      rintro rfl
      exact absurd (List.getElem?_eq_some_iff.1 hw).1 (Nat.not_lt.2 hj)
    rw [(hothers j hne).1]
    exact h.beyond j hj

/-- Who is woken holds nothing yet. -/
theorem release (h : p.Kept I es cut held) : p.release.Kept I es cut held where
  state := by
    rw [shared_release]
    exact h.state
  workers j w hj := by
    obtain hsame | ⟨s, t, hwaits, rfl⟩ := release_worker hj
    · exact h.workers j w hsame
    · exact .inr (h.workers j _ hwaits)
  beyond j hj := by
    refine h.beyond j ?_
    unfold Pool.release at hj
    split at hj
    · exact hj
    · exact List.length_modify .. ▸ hj

/-- A step of a task, its first or one in the middle. -/
theorem advance {s : Seat} {effect : σ → σ} {next : σ → Task σ ρ} (h : p.Kept I es cut held)
    (hw : p.workers[i]? = some ⟨s, .running (.step effect next)⟩) :
    ∃ held', Kept I (es ++ [.advance i]) cut held'
      { p.setPhase i (.running (next p.shared)) with shared := effect p.shared } := by
  have hstep : ∃ own, I (Function.update held i own) (effect p.shared) ∧
      (next p.shared).Keeps I i (fun _ own => own = false) own := by
    obtain ⟨-, hown, hkeeps⟩ | ⟨-, hown, henters⟩ := h.workers i _ hw
    · exact hkeeps held p.shared hown h.state
    · exact henters held p.shared hown h.state
  obtain ⟨own, hI, hkeeps⟩ := hstep
  refine ⟨Function.update held i own, h.setPhase hw rfl hI (fun j hj => ⟨?_, ?_⟩) (.inl ⟨?_, ?_⟩)⟩
  · exact Function.update_of_ne hj.symm _ _
  · simp [hj.symm]
  · simp
  · rw [Function.update_self]
    exact hkeeps

/-- An event that is no step of a task lets nobody begin. -/
theorem snoc (h : p.Kept I es cut held) (he : ∀ i, e ≠ .advance i) :
    p.Kept I (es ++ [e]) cut held where
  state := h.state
  workers i w hw := by
    have hes : .advance i ∈ es ++ [e] ↔ .advance i ∈ es := by simp [(he i).symm]
    rw [hes]
    exact h.workers i w hw
  beyond := h.beyond

/-- Every event keeps the invariant, as long as nobody is cut off in the middle of its task who is
not allowed to be. -/
theorem move (h : p.Kept I es cut held) (hm : Move p e q)
    (hcut : ∀ i, e = .die i → cut i ∨ ¬ Midway es p i) :
    ∃ held', q.Kept I (es ++ [e]) cut held' := by
  by_cases he : ∃ i, e = .advance i
  · obtain ⟨i, rfl⟩ := he
    cases hm with
    | advance hw => exact h.advance hw
  -- the others change no more than a phase
  have h' := h.snoc (e := e) (not_exists.1 he)
  refine ⟨held, ?_⟩
  cases hm with
  | advance => exact absurd ⟨_, rfl⟩ he
  | queue hw => exact h'.setPhase hw rfl h.state (fun _ _ => ⟨rfl, .rfl⟩) (h'.workers _ _ hw)
  | start hw =>
    exact h'.setPhase hw rfl h.state (fun _ _ => ⟨rfl, .rfl⟩) (.inr (h'.workers _ _ hw))
  | @send k _ r hw =>
    have hown := h.own_of_end hw fun ⟨_, _, _, _, hw'⟩ => nomatch hw.symm.trans hw'
    refine .release (h'.setPhase (g := .ended (some r)) hw rfl h.state (fun _ _ => ⟨rfl, .rfl⟩) ?_)
    exact fun hheld => nomatch hheld.symm.trans hown
  | @fall k _ hw =>
    have hown := h.own_of_end hw fun ⟨_, _, _, _, hw'⟩ => nomatch hw.symm.trans hw'
    refine .release (h'.setPhase (g := .ended none) hw rfl h.state (fun _ _ => ⟨rfl, .rfl⟩) ?_)
    exact fun hheld => nomatch hheld.symm.trans hown
  | dieSpawned hw | dieWaiting hw =>
    have hown := (h.workers _ _ hw).2.1
    refine h'.setPhase (g := .ended none) hw rfl h.state (fun _ _ => ⟨rfl, .rfl⟩) ?_
    exact fun hheld => nomatch hheld.symm.trans hown
  | @dieRunning k _ t hw =>
    refine .release (h'.setPhase (g := .ended none) hw rfl h.state (fun _ _ => ⟨rfl, .rfl⟩) ?_)
    intro hheld
    refine (hcut k rfl).resolve_right fun hend => ?_
    cases hheld.symm.trans (h.own_of_end hw hend)
  | receive => exact ⟨h'.state, h'.workers, h'.beyond⟩

/-- Who is cut off in the middle of its task holds something, and its unwinding gives that back. -/
theorem unwind {unwind : Task σ ρ} (h : p.Kept I es cut held) (hmid : Midway es p i)
    (hunwind : unwind.Keeps I i (fun _ own => own = false) true) :
    (p.setPhase i (.running unwind)).Kept I (es ++ [.die i]) cut held := by
  obtain ⟨hbegan, s, effect, next, hw⟩ := hmid
  obtain ⟨-, hown, -⟩ | ⟨hnot, -⟩ := h.workers i _ hw
  · have h' := h.snoc (e := .die i) (by simp)
    refine h'.setPhase hw rfl h.state (fun _ _ => ⟨rfl, .rfl⟩) (.inl ⟨?_, ?_⟩)
    · exact List.mem_append_left _ hbegan
    · rw [hown]
      exact hunwind
  · exact absurd hbegan hnot

/-- Where workers vanish when they are cut off. -/
theorem trace (h : start.Kept I [] (fun _ => False) held) (ht : Trace start es p) :
    ∃ held', p.Kept I es (fun i => .die i ∈ es) held' := by
  induction ht with
  | nil => exact ⟨held, h.mono fun _ => False.elim⟩
  | snoc _ hm ih =>
    obtain ⟨held', h'⟩ := ih
    refine (h'.mono fun i => List.mem_append_left _).move hm ?_
    rintro i rfl
    exact .inl List.mem_concat_self

/-- Where workers unwind when they are cut off. -/
theorem history {unwind : Nat → Task σ ρ} (h : start.Kept I [] (fun _ => False) held)
    (hunwind : ∀ i < start.workers.length, (unwind i).Keeps I i (fun _ own => own = false) true)
    (hh : History unwind start es p) : ∃ held', p.Kept I es (fun _ => False) held' := by
  induction hh with
  | nil => exact ⟨held, h⟩
  | snoc _ hm hout ih =>
    obtain ⟨held', h'⟩ := ih
    exact h'.move hm fun i he => .inr (hout i he)
  | unwind hh hmid ih =>
    obtain ⟨held', h'⟩ := ih
    obtain ⟨s, t, hw⟩ := hmid.runs
    have hlt := hh.length_workers ▸ (List.getElem?_eq_some_iff.1 hw).1
    exact ⟨held', h'.unwind hmid (hunwind _ hlt)⟩

end Kept

/-- Where nobody has begun, nobody holds anything. -/
theorem kept_of_spawned (hI : I (fun _ => false) start.shared)
    (h : ∀ (i : Nat) (w : Worker σ ρ), start.workers[i]? = some w →
      ∃ t, w.phase = .spawned t ∧ t.Enters I i (fun _ own => own = false)) :
    start.Kept I [] (fun _ => False) fun _ => false where
  state := hI
  workers i w hw := by
    obtain ⟨t, hphase, henters⟩ := h i w hw
    rw [hphase]
    exact ⟨List.not_mem_nil, rfl, henters⟩
  beyond _ _ := rfl

end Pool

end Assay
