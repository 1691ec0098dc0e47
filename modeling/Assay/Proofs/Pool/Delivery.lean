import Assay.Proofs.Pool.Moves
import Mathlib.Data.List.Nodup

/-!
# Pool — every result arrives at its seat, once

`Delivery seats sizes p` ties together how the workers have ended, the results on their way and the
board: a worker that has sent its result has it on the channel or on the board, and nowhere both;
a result on its way has a slot of its own that is still empty; the counters count the empty slots.
One event keeps it (`Delivery.move`), and so it holds of every pool that any events lead to
(`Delivery.reachable`). A pool that is finished has nothing on its way, so its board says of each
worker what it sent (`Delivery.slot_of_finished`).
-/

namespace Assay

variable {σ ρ : Type}

/-! ### The board -/

namespace Board

/-- The slot at a seat, none if there is no such slot. -/
def slot? (b : Board ρ) (s : Seat) : Option (Option ρ) := b.slots[s.suite]?.bind (·[s.fixture]?)

/-- Whether the counters are the numbers of the slots that are empty, suite by suite. -/
def Counted (b : Board ρ) : Prop := b.remaining = b.slots.map (·.countP (·.isNone))

/-- A result goes into the slot at its seat and leaves all others alone. -/
theorem slot?_put (b : Board ρ) (s t : Seat) (r : ρ) :
    (b.put s r).slot? t = if t = s then (b.slot? s).map fun _ => some r else b.slot? t := by
  obtain ⟨i, k⟩ := s
  obtain ⟨j, l⟩ := t
  simp only [slot?, put, List.getElem?_modify, Seat.mk.injEq]
  by_cases hij : i = j
  · subst hij
    cases b.slots[i]? with
    | none => simp
    | some row =>
      simp only [Option.map_eq_map, Option.map_some, if_true, Option.bind_some, true_and,
        List.getElem?_set]
      by_cases hkl : k = l
      · subst hkl
        by_cases hk : k < row.length <;> simp [hk]
      · rw [if_neg hkl, if_neg (Ne.symm hkl)]
  · rw [if_neg fun h => hij h.1.symm]
    cases b.slots[j]? with
    | none => rfl
    | some row => simp only [Option.map_eq_map, Option.map_some, if_neg hij]

/-- To fill an empty slot counts it, and its counter is not zero before. -/
theorem Counted.put {b : Board ρ} (h : b.Counted) {s : Seat} (hs : b.slot? s = some none) (r : ρ) :
    (b.put s r).Counted := by
  obtain ⟨row, hrow, hk⟩ := Option.bind_eq_some_iff.1 hs
  have hr : b.remaining[s.suite]? = some (row.countP (·.isNone)) := by
    rw [h, List.getElem?_map, hrow]
    rfl
  obtain ⟨hlt, hk⟩ := List.getElem?_eq_some_iff.1 hk
  show b.remaining.modify s.suite (· - 1) = (b.slots.modify s.suite _).map _
  rw [Pool.modify_of_getElem? hr, Pool.modify_of_getElem? hrow, List.map_set, h,
    List.countP_set hlt, hk]
  rfl

theorem Counted.pos {b : Board ρ} (h : b.Counted) {s : Seat} (hs : b.slot? s = some none) :
    ∃ k, b.remaining[s.suite]? = some (k + 1) := by
  obtain ⟨row, hrow, hk⟩ := Option.bind_eq_some_iff.1 hs
  have hpos : 0 < row.countP (·.isNone) :=
    List.countP_pos_iff.2 ⟨none, List.mem_of_getElem? hk, rfl⟩
  refine ⟨row.countP (·.isNone) - 1, ?_⟩
  rw [h, List.getElem?_map, hrow, Nat.sub_add_cancel hpos]
  rfl

/-- The numbers of slots, suite by suite. -/
def sizes (b : Board ρ) : List Nat := b.slots.map (·.length)

@[simp] theorem sizes_put (b : Board ρ) (s : Seat) (r : ρ) : (b.put s r).sizes = b.sizes :=
  Pool.map_modify_of_eq (fun _ => List.length_set) b.slots s.suite

/-- Whether suites of some sizes have a place for a seat. -/
def Fits (sizes : List Nat) (s : Seat) : Prop := ∃ n, sizes[s.suite]? = some n ∧ s.fixture < n

theorem isSome_slot?_of_fits {b : Board ρ} {s : Seat} (h : Fits b.sizes s) :
    ∃ o, b.slot? s = some o := by
  obtain ⟨n, hn, hlt⟩ := h
  rw [sizes, List.getElem?_map] at hn
  obtain ⟨row, hrow, rfl⟩ := Option.map_eq_some_iff.1 hn
  exact ⟨row[s.fixture], by rw [slot?, hrow, Option.bind_some, List.getElem?_eq_getElem hlt]⟩

theorem sizes_ofSizes (sizes : List Nat) : (ofSizes sizes : Board ρ).sizes = sizes := by
  simp only [Board.sizes, ofSizes, List.map_map]
  exact (List.map_congr_left fun n _ => List.length_replicate).trans (List.map_id _)

theorem counted_ofSizes (sizes : List Nat) : (ofSizes sizes : Board ρ).Counted := by
  simp only [Counted, ofSizes, List.map_map]
  refine ((List.map_congr_left fun n _ => ?_).trans (List.map_id _)).symm
  simp [List.countP_replicate]

theorem slot?_ofSizes {sizes : List Nat} {s : Seat} {o : Option ρ}
    (h : (ofSizes sizes).slot? s = some o) : o = none := by
  obtain ⟨row, hrow, hk⟩ := Option.bind_eq_some_iff.1 h
  rw [ofSizes, List.getElem?_map] at hrow
  obtain ⟨n, -, rfl⟩ := Option.map_eq_some_iff.1 hrow
  exact List.eq_of_mem_replicate (List.mem_of_getElem? hk)

end Board

namespace Pool

/-! ### What every event keeps -/

/-- Each result that a worker has sent is on its way or on the board, and what is on its way has an
empty slot of its own. -/
structure Delivery (seats : List Seat) (sizes : List Nat) (p : Pool σ ρ) : Prop where
  seated : p.endings.map (·.1) = seats
  shape : p.board.sizes = sizes
  counted : p.board.Counted
  once : (p.channel.map (·.1)).Nodup
  awaited : ∀ m ∈ p.channel, p.board.slot? m.1 = some none
  sent : ∀ s r, (s, some (some r)) ∈ p.endings ↔
    (s, r) ∈ p.channel ∨ p.board.slot? s = some (some r)

/-- A change of one item does not matter to others. -/
theorem mem_set_iff {α : Type} {l : List α} {i : Nat} {a b x : α} (h : l[i]? = some a)
    (ha : x ≠ a) (hb : x ≠ b) : x ∈ l.set i b ↔ x ∈ l := by
  refine ⟨fun hx => (List.mem_or_eq_of_mem_set hx).resolve_right hb, fun hx => ?_⟩
  obtain ⟨j, hj⟩ := List.mem_iff_getElem?.1 hx
  refine List.mem_iff_getElem?.2 ⟨j, ?_⟩
  rw [List.getElem?_set_ne fun hij => ha ?_, hj]
  subst hij
  exact Option.some.inj (hj.symm.trans h)

/-- At one seat there is one ending. -/
theorem ending_unique {es : List (Seat × Option (Option ρ))} (h : (es.map (·.1)).Nodup) {s : Seat}
    {e e' : Option (Option ρ)} (he : (s, e) ∈ es) (he' : (s, e') ∈ es) : e = e' :=
  (Prod.mk.inj (List.inj_on_of_nodup_map h he he' rfl)).2

namespace Delivery

variable {seats : List Seat} {sizes : List Nat} {p q : Pool σ ρ}

/-- The seat of a worker that has not ended has an empty slot, and nothing is on its way there. -/
theorem slot_of_pending (h : Delivery seats sizes p) (hd : seats.Nodup)
    (hf : ∀ s ∈ seats, Board.Fits sizes s) {s : Seat} (hs : (s, none) ∈ p.endings) :
    p.board.slot? s = some none ∧ s ∉ p.channel.map (·.1) := by
  have hnodup : (p.endings.map (·.1)).Nodup := h.seated ▸ hd
  have hno : ∀ r, (s, some (some r)) ∉ p.endings := fun r hr => by
    cases ending_unique hnodup hs hr
  have hfit : Board.Fits p.board.sizes s :=
    h.shape ▸ hf s (h.seated ▸ List.mem_map_of_mem (f := (·.1)) hs)
  refine ⟨?_, fun hm => ?_⟩
  · obtain ⟨o, ho⟩ := Board.isSome_slot?_of_fits hfit
    cases o with
    | none => exact ho
    | some r => exact absurd ((h.sent s r).2 (.inr ho)) (hno r)
  · obtain ⟨⟨s', r⟩, hr, rfl⟩ := List.mem_map.1 hm
    exact hno r ((h.sent _ r).2 (.inl hr))

/-- A worker that has not ended ends, with or without a result. -/
theorem seated_set (h : Delivery seats sizes p) {i : Nat} {s : Seat} {e : Option (Option ρ)}
    (hi : p.endings[i]? = some (s, e)) (e' : Option (Option ρ)) :
    (p.endings.set i (s, e')).map (·.1) = seats := by
  have hs : (p.endings.map (·.1))[i]? = some s := by rw [List.getElem?_map, hi]; rfl
  rw [List.map_set, set_of_getElem? hs, h.seated]

theorem silent (h : Delivery seats sizes p) {i : Nat} {s : Seat}
    (hi : p.endings[i]? = some (s, none)) (he : q.endings = p.endings.set i (s, some none))
    (hc : q.channel = p.channel) (hb : q.board = p.board) : Delivery seats sizes q where
  seated := he ▸ h.seated_set hi _
  shape := hb ▸ h.shape
  counted := hb ▸ h.counted
  once := hc ▸ h.once
  awaited := hb ▸ hc ▸ h.awaited
  sent t r := by
    rw [he, hc, hb, mem_set_iff hi (fun e => by cases e) (fun e => by cases e)]
    exact h.sent t r

theorem send (h : Delivery seats sizes p) (hd : seats.Nodup)
    (hf : ∀ s ∈ seats, Board.Fits sizes s) {i : Nat} {s : Seat} {r : ρ}
    (hi : p.endings[i]? = some (s, none)) (he : q.endings = p.endings.set i (s, some (some r)))
    (hc : q.channel = p.channel ++ [(s, r)]) (hb : q.board = p.board) :
    Delivery seats sizes q := by
  -- the worker has sent nothing yet, so its seat is not on the channel and its slot is empty
  obtain ⟨hopen, hfree⟩ := h.slot_of_pending hd hf (List.mem_of_getElem? hi)
  refine ⟨he ▸ h.seated_set hi _, hb ▸ h.shape, hb ▸ h.counted, ?_, ?_, fun t u => ?_⟩
  · rw [hc, List.map_append]
    refine List.nodup_append.2 ⟨h.once, List.nodup_singleton _, fun a ha b hb' => ?_⟩
    rintro rfl
    exact hfree ((List.mem_singleton.1 hb' : a = s) ▸ ha)
  · intro m hm
    rw [hc, List.mem_append, List.mem_singleton] at hm
    rw [hb]
    obtain hm | rfl := hm
    · exact h.awaited m hm
    · exact hopen
  · rw [he, hc, hb, List.mem_append, List.mem_singleton]
    by_cases htu : (t, u) = (s, r)
    · cases htu
      exact iff_of_true (List.mem_set (List.getElem?_eq_some_iff.1 hi).1 _) (.inl (.inr rfl))
    · rw [mem_set_iff hi (fun e => by cases e) (fun e => htu (by cases e; rfl)), h.sent t u]
      exact or_congr_left (or_iff_left htu).symm

theorem receive (h : Delivery seats sizes p) {s : Seat} {r : ρ} (he : q.endings = p.endings)
    (hc : p.channel = (s, r) :: q.channel) (hb : q.board = p.board.put s r) :
    Delivery seats sizes q := by
  have hopen : p.board.slot? s = some none := h.awaited (s, r) (hc ▸ List.mem_cons_self)
  have honce := h.once
  rw [hc, List.map_cons, List.nodup_cons] at honce
  obtain ⟨hout, hrest⟩ := honce
  have hput : ∀ t, q.board.slot? t = if t = s then some (some r) else p.board.slot? t := fun t => by
    rw [hb, Board.slot?_put, hopen]
    rfl
  refine ⟨he ▸ h.seated, ?_, hb ▸ h.counted.put hopen r, hrest, fun m hm => ?_, fun t u => ?_⟩
  · rw [hb, Board.sizes_put, h.shape]
  · have hne : m.1 ≠ s := fun e => hout (e ▸ List.mem_map_of_mem (f := (·.1)) hm)
    rw [hput, if_neg hne]
    exact h.awaited m (hc ▸ List.mem_cons_of_mem _ hm)
  · rw [he, h.sent t u, hc, List.mem_cons, hput]
    by_cases hts : t = s
    · subst hts
      have hno : (t, u) ∉ q.channel := fun hm => hout (List.mem_map_of_mem (f := (·.1)) hm)
      simp [hopen, hno, eq_comm]
    · simp [hts]

/-- Whatever an event does to the accounts keeps them right. -/
theorem traffic (h : Delivery seats sizes p) (hd : seats.Nodup)
    (hf : ∀ s ∈ seats, Board.Fits sizes s) (ht : Traffic p q) : Delivery seats sizes q := by
  obtain ⟨he, hc, hb⟩ | ⟨hi, he, hc, hb⟩ | ⟨hi, he, hc, hb⟩ | ⟨he, hc, hb⟩ := ht
  · exact ⟨he ▸ h.seated, hb ▸ h.shape, hb ▸ h.counted, hc ▸ h.once, hb ▸ hc ▸ h.awaited,
      he ▸ hb ▸ hc ▸ h.sent⟩
  · exact h.silent hi he hc hb
  · exact h.send hd hf hi he hc hb
  · exact h.receive he hc hb

/-- One event keeps the accounts. -/
theorem move (h : Delivery seats sizes p) (hd : seats.Nodup)
    (hf : ∀ s ∈ seats, Board.Fits sizes s) {e : Event} (hm : Move p e q) :
    Delivery seats sizes q := h.traffic hd hf hm.traffic

/-- So does every sequence of events. -/
theorem reachable (h : Delivery seats sizes p) (hd : seats.Nodup)
    (hf : ∀ s ∈ seats, Board.Fits sizes s) (hr : Reachable p q) : Delivery seats sizes q := by
  induction hr with
  | refl => exact h
  | more _ hs ih => exact ih.move hd hf (move_of_apply hs)

/-- A filled slot keeps its result, whatever happens. -/
theorem slot_stays (h : Delivery seats sizes p) (hd : seats.Nodup)
    (hf : ∀ s ∈ seats, Board.Fits sizes s) (hr : Reachable p q) {s : Seat} {r : ρ}
    (hs : p.board.slot? s = some (some r)) : q.board.slot? s = some (some r) := by
  induction hr with
  | refl => exact hs
  | more hr' ha ih =>
    have hp' := h.reachable hd hf hr'
    obtain ⟨-, -, hb⟩ | ⟨-, -, -, hb⟩ | ⟨-, -, -, hb⟩ | ⟨-, hc, hb⟩ := (move_of_apply ha).traffic
    · exact hb ▸ ih
    · exact hb ▸ ih
    · exact hb ▸ ih
    · -- what is received goes into a slot that is empty, so not into this one
      have hopen := hp'.awaited _ (hc ▸ List.mem_cons_self)
      rw [hb, Board.slot?_put, if_neg fun e => ?_, ih]
      rw [e, hopen] at ih
      cases ih

/-- At the end the board says of every worker what it has sent. -/
theorem slot_of_finished (h : Delivery seats sizes p) (hd : seats.Nodup)
    (hf : ∀ s ∈ seats, Board.Fits sizes s) (hc : p.channel = []) {s : Seat} {sent : Option ρ}
    (hs : (s, some sent) ∈ p.endings) : p.board.slot? s = some sent := by
  have hnodup : (p.endings.map (·.1)).Nodup := h.seated ▸ hd
  have hfit : Board.Fits p.board.sizes s :=
    h.shape ▸ hf s (h.seated ▸ List.mem_map_of_mem (f := (·.1)) hs)
  obtain ⟨o, ho⟩ := Board.isSome_slot?_of_fits hfit
  have hsent : ∀ r, (s, some (some r)) ∈ p.endings ↔ o = some r := fun r => by
    rw [h.sent s r, hc, ho, Option.some.injEq]
    exact or_iff_right List.not_mem_nil
  rw [ho]
  congr 1
  cases o with
  | some r => exact (Option.some.inj (ending_unique hnodup hs ((hsent r).2 rfl))).symm
  | none =>
    cases sent with
    | none => rfl
    | some r => cases (hsent r).1 hs

end Delivery

/-- A pool is finished when nothing is on its way and every worker has ended. -/
theorem finished_iff {p : Pool σ ρ} :
    p.finished = true ↔ p.channel = [] ∧ ∀ w ∈ p.workers, ∃ sent, w.phase = .ended sent := by
  rw [finished, Bool.and_eq_true, List.isEmpty_iff, List.all_eq_true]
  refine and_congr_right fun _ => forall₂_congr fun w _ => ?_
  cases w.phase with
  | ended sent => exact iff_of_true rfl ⟨sent, rfl⟩
  | spawned | waiting | running => exact iff_of_false Bool.noConfusion fun ⟨_, h⟩ => nomatch h

end Pool

end Assay
