import Assay.Proofs.Scratch.Operations

/-!
# Scratch — the life of scratch directories

Any number of scratch directories are made, written into, cleaned up and dropped, in any order, and
between two operations anything may happen to the files behind their backs. `Step` is one operation
or such an interference, `History` a sequence of them, with a log of what each came to.

* A directory counts as removed exactly if one of its cleanups has worked
  (`Kept.removed_iff`, kept by every step: `Kept.step`).
* `lifecycle`: what a step does in any history. A directory is made only where nothing stands,
  whatever its id is; a cleanup that has not worked is made again; after one that has worked nothing
  is touched; and nothing is touched but what stands at the path and below it.
-/

namespace Assay.Scratch

/-! ### Histories -/

/-- What can happen to scratch directories, and what it comes to. They are numbered in the order of
the attempts to make them. -/
inductive Event where
  | create (base : Path) (label : String) (seed : Nat) (made : Except Error Scratch)
  | write (i : Nat) (name : String) (f : File)
  | cleanup (i : Nat) (done : Except Error Unit)
  | drop (i : Nat)
  /-- The files are replaced by any others. -/
  | interfere (files : FileSystem)

/-- Whether an event is a cleanup or the drop of a directory, which remove it. -/
def Event.Removes (e : Event) (i : Nat) : Prop := e = .drop i ∨ ∃ done, e = .cleanup i done

/-- A machine and the scratch directories that were made on it; none is left of one that could not
be made or has been dropped. -/
structure Store where
  machine : Machine
  held : List (Option Scratch)

/-- The files of a store. -/
def Store.files (s : Store) : FileSystem := s.machine.files

/-- One event. The id of a new directory is any, one that was there before too. -/
inductive Step : Store → Event → Store → Prop where
  | create {m m' : Machine} {held : List (Option Scratch)} {base : Path} {label : String}
      {seed : Nat} {made : Except Error Scratch}
      (h : Scratch.create base label (idOf seed) m = (made, m')) :
      Step ⟨m, held⟩ (.create base label seed made) ⟨m', held ++ [made.toOption]⟩
  | write {m : Machine} {held : List (Option Scratch)} {i : Nat} {x : Scratch} {name : String}
      {f : File} (hx : held[i]? = some (some x)) :
      Step ⟨m, held⟩ (.write i name f) ⟨(m.attempt (·.write (x.file name) f)).2, held⟩
  | cleanup {m m' : Machine} {held : List (Option Scratch)} {i : Nat} {x x' : Scratch}
      {done : Except Error Unit} (hx : held[i]? = some (some x))
      (h : x.cleanup m = (done, x', m')) :
      Step ⟨m, held⟩ (.cleanup i done) ⟨m', held.set i (some x')⟩
  | drop {m : Machine} {held : List (Option Scratch)} {i : Nat} {x : Scratch}
      (hx : held[i]? = some (some x)) : Step ⟨m, held⟩ (.drop i) ⟨x.drop m, held.set i none⟩
  | interfere {m : Machine} {held : List (Option Scratch)} {files : FileSystem} :
      Step ⟨m, held⟩ (.interfere files) ⟨{ m with files := files }, held⟩

/-- Events one after another, from a machine on which no scratch directory has been made. -/
inductive History (m : Machine) : List Event → Store → Prop where
  | nil : History m [] ⟨m, []⟩
  | snoc {log : List Event} {s s' : Store} {e : Event} (h : History m log s) (hs : Step s e s') :
      History m (log ++ [e]) s'

/-! ### What is kept -/

variable {log : List Event} {s s' : Store} {e : Event}

/-- What holds after any events. -/
structure Kept (log : List Event) (s : Store) : Prop where
  honest : s.machine.Honest
  /-- A directory counts as removed exactly if a cleanup of it has worked. -/
  removed_iff : ∀ i x, s.held[i]? = some (some x) →
    (x.removed = true ↔ .cleanup i (.ok ()) ∈ log)
  /-- Only what was made has been cleaned up. -/
  numbered : ∀ i done, .cleanup i done ∈ log → i < s.held.length

/-- An event that is no cleanup keeps this, if all that is held by then was held before under its
number or is new. -/
theorem Kept.mono (h : Kept log s) (hne : ∀ i done, e ≠ .cleanup i done)
    (hhonest : s'.machine.Honest) (hlen : s.held.length ≤ s'.held.length)
    (hheld : ∀ i x, s'.held[i]? = some (some x) →
      s.held[i]? = some (some x) ∨ s.held.length ≤ i ∧ x.removed = false) :
    Kept (log ++ [e]) s' := by
  have hlog : ∀ i done, .cleanup i done ∈ log ++ [e] ↔ .cleanup i done ∈ log := by
    intro i done
    rw [List.mem_append, List.mem_singleton, or_iff_left (hne i done).symm]
  refine ⟨hhonest, fun i x hx => ?_, fun i done hin => ?_⟩
  · rw [hlog]
    obtain hx | ⟨hle, hnew⟩ := hheld i x hx
    · exact h.removed_iff i x hx
    · rw [hnew]
      exact iff_of_false nofun fun hin => Nat.not_lt.2 hle (h.numbered i _ hin)
  · exact Nat.lt_of_lt_of_le (h.numbered i done ((hlog i done).1 hin)) hlen

/-- What is kept of a history stays true with one event more. -/
theorem Kept.step (h : Kept log s) (hs : Step s e s') : Kept (log ++ [e]) s' := by
  cases hs with
  | @create m m' held base label seed made hc =>
    have hhonest : m'.Honest := by
      rw [Machine.Honest, refusals_of_create hc]
      exact h.honest
    refine h.mono nofun hhonest (by simp) fun i x hi => ?_
    by_cases hlt : i < held.length
    · rw [List.getElem?_append_left hlt] at hi
      exact .inl hi
    · refine .inr ⟨Nat.le_of_not_lt hlt, ?_⟩
      rw [List.getElem?_append_right (Nat.le_of_not_lt hlt), List.getElem?_singleton] at hi
      split at hi
      · cases made with
        | error why => cases hi
        | ok y =>
          cases hi
          rw [eq_of_create hc]
      · cases hi
  | write hx =>
    refine h.mono nofun ?_ (Nat.le_refl _) fun _ _ => .inl
    rw [Machine.Honest, Machine.refusals_attempt]
    exact h.honest
  | @cleanup m m' held i x x' done hx hc =>
    have hlt := (List.getElem?_eq_some_iff.1 hx).1
    refine ⟨honest_of_cleanup h.honest hc, fun j y hj => ?_, fun j done' hin => ?_⟩
    · simp only [List.mem_append, List.mem_singleton, Event.cleanup.injEq]
      by_cases hij : i = j
      · subst hij
        rw [List.getElem?_set_self hlt] at hj
        cases hj
        rw [removed_of_cleanup hc, h.removed_iff i x hx]
        simp only [true_and, eq_comm]
      · rw [List.getElem?_set_ne hij] at hj
        rw [h.removed_iff j y hj]
        simp only [Ne.symm hij, false_and, or_false]
    · rw [List.length_set]
      simp only [List.mem_append, List.mem_singleton, Event.cleanup.injEq] at hin
      obtain hin | ⟨rfl, -⟩ := hin
      · exact h.numbered j done' hin
      · exact hlt
  | @drop m held i x hx =>
    refine h.mono nofun (honest_of_cleanup h.honest (Prod.ext rfl rfl)) (by simp) fun j y hj => ?_
    by_cases hij : i = j
    · subst hij
      rw [List.getElem?_set_self (List.getElem?_eq_some_iff.1 hx).1] at hj
      cases hj
    · rw [List.getElem?_set_ne hij] at hj
      exact .inl hj
  | interfere => exact h.mono nofun h.honest (Nat.le_refl _) fun _ _ => .inl

/-- Every history is kept. -/
theorem History.kept {m : Machine} (hm : m.Honest) (h : History m log s) : Kept log s := by
  induction h with
  | nil => exact ⟨hm, nofun, nofun⟩
  | snoc _ hs ih => exact ih.step hs

/-! ### What an event does -/

/-- What an event does behind others. -/
structure Lawful (log : List Event) (s : Store) (e : Event) (s' : Store) : Prop where
  /-- A directory is made where nothing stands; otherwise there is a reason, and whatever stands
  somewhere stays there. -/
  created : ∀ base label seed made, e = .create base label seed made →
    IsCreation (base.child (dirName label (idOf seed))) s.files s'.files made
  refused : ∀ base label seed made, e = .create base label seed made →
    s.files.Stands (base.child (dirName label (idOf seed))) →
      ∃ p cause, made = .error (.scratch p cause)
  /-- A new directory has another path than each that still stands. -/
  apart : ∀ base label seed x, e = .create base label seed (.ok x) →
    ∀ base' label' seed' y, .create base' label' seed' (.ok y) ∈ log →
      s.files.Stands y.path → x.path ≠ y.path
  /-- A cleanup that works has worked before, or leaves nothing at the path. -/
  cleaned : ∀ i x, s.held[i]? = some (some x) → e = .cleanup i (.ok ()) →
    .cleanup i (.ok ()) ∈ log ∨ ¬ s'.files.Stands x.path
  /-- One that fails does not count. -/
  failed : ∀ i why, e = .cleanup i (.error why) →
    ∃ x, s'.held[i]? = some (some x) ∧ x.removed = false
  /-- As long as none has worked, a cleanup and the drop are a removal. -/
  retried : ∀ i x, s.held[i]? = some (some x) → e.Removes i → .cleanup i (.ok ()) ∉ log →
    s'.machine = (s.machine.removeTree x.path).2
  /-- Once one has worked, nothing is done any more. -/
  settled : ∀ i, e.Removes i → .cleanup i (.ok ()) ∈ log → s'.machine = s.machine
  /-- Nothing changes but what stands at the path and below it. -/
  below : ∀ i x, s.held[i]? = some (some x) → e.Removes i →
    FileSystem.OnlyBelow x.path s.files s'.files

/-- A cleanup in a history is one of a directory that somebody holds. -/
theorem exists_cleanup_of_step {i : Nat} {done : Except Error Unit}
    (hs : Step s (.cleanup i done) s') :
    ∃ x x', s.held[i]? = some (some x) ∧ s'.held[i]? = some (some x') ∧
      x.cleanup s.machine = (done, x', s'.machine) := by
  cases hs with
  | cleanup hx hc =>
    exact ⟨_, _, hx, List.getElem?_set_self (List.getElem?_eq_some_iff.1 hx).1, hc⟩

/-- A cleanup and a drop do the same to the machine. -/
theorem exists_cleanup_of_removes {i : Nat} (hs : Step s e s') (he : e.Removes i) :
    ∃ x x' done, s.held[i]? = some (some x) ∧ x.cleanup s.machine = (done, x', s'.machine) := by
  rcases he with rfl | ⟨done, rfl⟩
  · cases hs with
    | drop hx => exact ⟨_, _, _, hx, rfl⟩
  · obtain ⟨x, x', hx, -, hc⟩ := exists_cleanup_of_step hs
    exact ⟨x, x', done, hx, hc⟩

/-- They do it to the directory that is held under the number. -/
theorem cleanup_of_removes {i : Nat} {x : Scratch} (hs : Step s e s') (he : e.Removes i)
    (hx : s.held[i]? = some (some x)) :
    ∃ x' done, x.cleanup s.machine = (done, x', s'.machine) := by
  obtain ⟨y, x', done, hy, hc⟩ := exists_cleanup_of_removes hs he
  obtain rfl := Option.some.inj (Option.some.inj (hx.symm.trans hy))
  exact ⟨x', done, hc⟩

/-- A creation in a history makes a new directory or none. -/
theorem isCreation_of_step {base : Path} {label : String} {seed : Nat} {made : Except Error Scratch}
    (hs : Step s (.create base label seed made) s') :
    IsCreation (base.child (dirName label (idOf seed))) s.files s'.files made := by
  cases hs with
  | create hc => exact isCreation_create (isId_encode_idOf seed).slash_not_mem hc

/-- As long as no cleanup of a directory has worked, its path is removed. -/
theorem Kept.removed_eq_false (h : Kept log s) {i : Nat} {x : Scratch}
    (hx : s.held[i]? = some (some x)) (hnone : .cleanup i (.ok ()) ∉ log) : x.removed = false :=
  Bool.eq_false_iff.2 fun htrue => hnone ((h.removed_iff i x hx).1 htrue)

/-- Scratch directories of any number, made in any machine with any ids, whatever else happens to
the files: what each operation does to the files, and what it says of it. -/
theorem lifecycle {m : Machine} (hm : m.Honest) (h : History m log s) (hs : Step s e s') :
    Lawful log s e s' := by
  have hkept := h.kept hm
  constructor
  case created =>
    rintro base label seed made rfl
    exact isCreation_of_step hs
  case refused =>
    rintro base label seed made rfl hstands
    have hcreation := isCreation_of_step hs
    cases made with
    | ok x => exact absurd hstands (hcreation.fresh x rfl).2.1
    | error why =>
      obtain ⟨p, cause, rfl⟩ := hcreation.failed why rfl
      exact ⟨p, cause, rfl⟩
  case apart =>
    rintro base label seed x rfl _ _ _ y - hstands heq
    obtain ⟨rfl, hfree, -⟩ := (isCreation_of_step hs).fresh x rfl
    dsimp only at heq
    exact hfree (heq ▸ hstands)
  case cleaned =>
    rintro i x hx rfl
    obtain ⟨y, x', hy, -, hc⟩ := exists_cleanup_of_step hs
    obtain rfl := Option.some.inj (Option.some.inj (hx.symm.trans hy))
    cases hremoved : x.removed with
    | true  => exact .inl ((hkept.removed_iff i x hx).1 hremoved)
    | false => exact .inr (not_stands_of_cleanup hkept.honest hremoved hc)
  case failed =>
    rintro i why rfl
    obtain ⟨x, x', -, hx', hc⟩ := exists_cleanup_of_step hs
    exact ⟨x', hx', removed_eq_false_of_cleanup hc⟩
  case retried =>
    intro i x hx he hnone
    obtain ⟨x', done, hc⟩ := cleanup_of_removes hs he hx
    obtain ⟨r, hr, -⟩ := cleanup_cases (hkept.removed_eq_false hx hnone) hc
    rw [hr]
  case settled =>
    intro i he hdone
    obtain ⟨x, x', done, hx, hc⟩ := exists_cleanup_of_removes hs he
    rw [cleanup_of_removed ((hkept.removed_iff i x hx).2 hdone)] at hc
    exact (Prod.mk.inj (Prod.mk.inj hc).2).2.symm
  case below =>
    intro i x hx he
    obtain ⟨x', done, hc⟩ := cleanup_of_removes hs he hx
    exact onlyBelow_cleanup hc

/-! ### A removal that is refused once -/

namespace Refused

def base : Path := .ofString "s"

def scratch : Scratch := ⟨base.child (dirName "a" (idOf 0)), false⟩

/-- A machine that refuses the first removal. -/
def machine : Machine := ⟨.empty, [], [some (.os .permissionDenied)]⟩

/-- The machine with the directory, before and after the removal that is refused. -/
def made : Machine := (create base "a" (idOf 0) machine).2
def kept : Machine := (scratch.cleanup made).2.2

/-- What has happened by then: one directory was made, and it could not be removed. -/
def events : List Event :=
  [.create base "a" 0 (.ok scratch), .cleanup 0 (.error (.file (.os .permissionDenied)))]

theorem history : History machine events ⟨kept, [some scratch]⟩ := by
  have hcreate : create base "a" (idOf 0) machine = (.ok scratch, made) := Prod.ext rfl rfl
  have hcleanup : scratch.cleanup made =
      (.error (.file (.os .permissionDenied)), scratch, kept) := Prod.ext rfl (Prod.ext rfl rfl)
  have hfirst : History machine [.create base "a" 0 (.ok scratch)] ⟨made, [some scratch]⟩ :=
    .snoc .nil (.create hcreate)
  exact .snoc hfirst (.cleanup (i := 0) rfl hcleanup)

/-- The drop is lawful, and so it is one more removal. -/
theorem lifecycle_of_drop :
    machine.Honest ∧ History machine events ⟨kept, [some scratch]⟩ ∧
      kept.files.Stands scratch.path ∧
      Lawful events ⟨kept, [some scratch]⟩ (.drop 0) ⟨scratch.drop kept, [none]⟩ := by
  have hhonest : machine.Honest := by
    intro hin
    cases List.mem_singleton.1 hin
  exact ⟨hhonest, history, ⟨_, _, rfl⟩, lifecycle hhonest history (.drop rfl)⟩

end Refused

end Assay.Scratch
