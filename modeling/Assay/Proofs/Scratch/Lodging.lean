import Assay.Proofs.FileSystem.Passage
import Mathlib.Logic.Function.Basic

/-!
# Scratch — directories that come and go

While scratch directories are made, written into and removed, the files are a ground with those
directories on it that some workers hold at the time (`Lodging`). The ground is what was there at
the start, with directories added at the base and above it; it only grows, and not while somebody
holds a directory, for then all of them are there. Nothing is assumed of the names of the
directories but that each stands for an entry: one that is taken cannot be made again.

* `Lodging.enter`, `Lodging.write`, `Lodging.leave`: what the holder of a directory does with it.
* `FileSystem.Intact`: what all this comes to for who looks at the files.
-/

namespace Assay

open FileSystem (Grown Askable)
open Assay.Path (IsSegment)

namespace FileSystem

variable {fs fs' : FileSystem} {p : Path} {b : Loc}

/-- Whether a path leads to a place, or is empty and stands for it. -/
def Leads (fs : FileSystem) (p : Path) (b : Loc) : Prop :=
  p.isEmpty = true ∧ b = fs.cwd ∨ fs.openDir p = .ok b

/-- What is made at the end of a path that leads to a place stands there. -/
theorem Leads.reaches (h : fs.Leads p b) : fs.Reaches p b := by
  obtain ⟨hempty, rfl⟩ | h := h
  · exact reaches_of_isEmpty hempty
  · exact reaches_of_openDir h

/-- A path that leads somewhere is ready for directories below it. -/
theorem Leads.ready (h : fs.Leads p b) : fs.Ready p :=
  h.imp And.left fun h => isDir_iff.2 ⟨b, openDir_eq_ok.1 h⟩

/-- A path goes on to lead to its place when entries are added. -/
theorem Leads.mono (h : fs'.Leads p b) (hw : fs'.Within fs) : fs.Leads p b :=
  h.imp (fun h => ⟨h.1, h.2.trans hw.cwd⟩) (openDir_mono hw)

/-- A path that is ready leads somewhere. -/
theorem Ready.leads (h : fs.Ready p) : ∃ b, fs.Leads p b := by
  obtain h | h := h
  · exact ⟨_, .inl ⟨h, rfl⟩⟩
  · obtain ⟨b, hb⟩ := isDir_iff.1 h
    exact ⟨b, .inr (openDir_eq_ok.2 hb)⟩

/-- Whether a file system is as it was, but for directories at the base or above it, and for the
scratch directories of some workers, which were not there, and all that is in them. -/
structure Intact (fs₀ : FileSystem) (base : Path) (scratch : Nat → Path) (held : Nat → Prop)
    (fs : FileSystem) : Prop where
  within : fs₀.Within fs
  added : ∀ l e, fs.get? l = some e → fs₀.get? l = some e ∨
    (e = .dir ∧ ∃ q, base.Above q ∧ fs.openDir q = .ok l) ∨
    ∃ i home, held i ∧ fs.lookup false (scratch i) = .ok (home, .dir) ∧ fs₀.get? home = none ∧
      home <:+ l

/-- What is intact but for some directories is so but for more of them. -/
theorem Intact.mono {fs₀ : FileSystem} {base : Path} {scratch : Nat → Path} {P Q : Nat → Prop}
    (h : fs₀.Intact base scratch P fs) (hPQ : ∀ i, P i → Q i) : fs₀.Intact base scratch Q fs where
  within := h.within
  added l e he := (h.added l e he).imp_right
    (.imp_right fun ⟨i, home, hi, hrest⟩ => ⟨i, home, hPQ i hi, hrest⟩)

end FileSystem

/-- Whether some workers hold a directory each, at its name in the place `b` that the base leads to,
and all else is as on the ground. -/
structure Lodging (fs₀ : FileSystem) (base : Path) (name : Nat → Bytes) (held : Nat → Bool)
    (ground : FileSystem) (b : Loc) (fs : FileSystem) : Prop where
  grown : fs₀.Grown base ground
  cwd : ground.cwd = fs.cwd
  outside : ∀ l, (∀ i, held i = true → ¬ (name i :: b) <:+ l) → fs.get? l = ground.get? l
  leads : ∀ i, held i = true → ground.Leads base b
  vacant : ∀ i, held i = true → ground.get? (name i :: b) = none
  home : ∀ i, held i = true → fs.get? (name i :: b) = some .dir
  askable : ∀ i, held i = true → Askable (base.join ⟨name i⟩)
  plain : ∀ i, held i = true → ∀ l t, (name i :: b) <:+ l → fs.get? l ≠ some (.link t)
  apart : ∀ i j, held i = true → held j = true → name i = name j → i = j

namespace Lodging

variable {fs₀ fs fs' ground : FileSystem} {base : Path} {name : Nat → Bytes} {held : Nat → Bool}
  {b l : Loc} {n : Nat}

theorem update_true {i : Nat} :
    Function.update held n true i = true ↔ i = n ∨ held i = true := by
  by_cases h : i = n
  · simp [h]
  · simp [h]

theorem update_false {i : Nat} :
    Function.update held n false i = true ↔ i ≠ n ∧ held i = true := by
  by_cases h : i = n
  · simp [h]
  · simp [h]

/-- All that is on the ground is still there. -/
theorem within (h : Lodging fs₀ base name held ground b fs) : ground.Within fs where
  cwd := h.cwd
  get? l e he := by
    rw [h.outside l fun i hi hl => ?_]
    · exact he
    · cases he.symm.trans (FileSystem.get?_below (h.vacant i hi) hl)

theorem reaches (h : Lodging fs₀ base name held ground b fs) (hn : held n = true) :
    fs.Reaches base b := ((h.leads n hn).mono h.within).reaches

/-- The path of a directory that is held leads to its home. -/
theorem lookup (h : Lodging fs₀ base name held ground b fs) (hs : IsSegment (name n))
    (hn : held n = true) : fs.lookup false (base.join ⟨name n⟩) = .ok (name n :: b, .dir) :=
  FileSystem.lookup_of_below (h.reaches hn) hs (h.askable n hn) (h.home n hn)

/-! ### Nobody -/

/-- Where nobody holds a directory, the files are the ground. -/
theorem of_grown (h : fs₀.Grown base fs) (hheld : ∀ i, held i = false) (b : Loc) :
    Lodging fs₀ base name held fs b fs := by
  have hno : ∀ i, ¬ held i = true := fun i => Bool.eq_false_iff.1 (hheld i)
  exact {
    grown := h
    cwd := rfl
    outside := fun _ _ => rfl
    leads := fun i hi => absurd hi (hno i)
    vacant := fun i hi => absurd hi (hno i)
    home := fun i hi => absurd hi (hno i)
    askable := fun i hi => absurd hi (hno i)
    plain := fun i hi => absurd hi (hno i)
    apart := fun i _ hi => absurd hi (hno i) }

/-- Where nobody holds a directory there is nothing but the ground. -/
theorem grown_of_nobody (h : Lodging fs₀ base name held ground b fs)
    (hheld : ∀ i, held i = false) : fs₀.Grown base fs := by
  refine h.grown.trans ⟨h.within, fun l e he => .inl ?_⟩
  rw [← h.outside l fun i hi => ?_]
  · exact he
  · cases (hheld i).symm.trans hi

/-- The base and what is above it are there as soon as somebody holds a directory. -/
theorem makeDirs (h : Lodging fs₀ base name held ground b fs) {made : Except Fault Unit}
    (hm : fs.makeDirs base = (made, fs')) : ∃ ground' b',
      Lodging fs₀ base name held ground' b' fs' ∧ (made = .ok () → ground'.Leads base b') := by
  by_cases hheld : ∃ i, held i = true
  · obtain ⟨i, hi⟩ := hheld
    rw [FileSystem.makeDirs_of_ready ((h.leads i hi).mono h.within).ready] at hm
    cases hm
    exact ⟨ground, b, h, fun _ => h.leads i hi⟩
  · have hnobody : ∀ i, held i = false := fun i => Bool.eq_false_iff.2 fun hi => hheld ⟨i, hi⟩
    have hgrown := (h.grown_of_nobody hnobody).trans (FileSystem.grown_of_makeDirs hm)
    cases made with
    | error why => exact ⟨fs', b, of_grown hgrown hnobody b, nofun⟩
    | ok _ =>
      obtain ⟨b', hb'⟩ := (FileSystem.ready_of_makeDirs hm).leads
      exact ⟨fs', b', of_grown hgrown hnobody b', fun _ => hb'⟩

/-! ### The holder of a directory -/

/-- Who makes a directory holds it; nobody has held one of its name. -/
theorem enter (h : Lodging fs₀ base name held ground b fs) (hleads : ground.Leads base b)
    (hs : IsSegment (name n)) (hm : fs.makeDir (base.join ⟨name n⟩) = .ok fs') :
    Lodging fs₀ base name (Function.update held n true) ground b fs' := by
  have hask := FileSystem.askable_of_makeDir hm
  obtain ⟨hnone, hname, hd, hn', rfl⟩ :=
    FileSystem.makeDir_below (hleads.mono h.within).reaches hs hm
  have hother : ∀ j, held j = true → name n ≠ name j := fun j hj he => by
    rw [he, h.home j hj] at hnone
    cases hnone
  exact {
    grown := h.grown
    cwd := h.cwd
    outside := fun l hl => by
      rw [FileSystem.get?_insert, if_neg]
      · exact h.outside l fun i hi => hl i (update_true.2 (.inr hi))
      · rintro rfl
        exact hl n (update_true.2 (.inl rfl)) (List.suffix_refl _)
    leads := fun _ _ => hleads
    vacant := fun i hi => by
      obtain rfl | hi := update_true.1 hi
      · exact h.within.get?_eq_none hnone
      · exact h.vacant i hi
    home := fun i hi => by
      rw [FileSystem.get?_insert]
      split
      · rfl
      next hne =>
        obtain rfl | hi := update_true.1 hi
        · exact absurd rfl hne
        · exact h.home i hi
    askable := fun i hi => by
      obtain rfl | hi := update_true.1 hi
      · exact hask
      · exact h.askable i hi
    plain := fun i hi l t hl => by
      rw [FileSystem.get?_insert]
      split
      · exact nofun
      · obtain rfl | hi := update_true.1 hi
        · rw [FileSystem.get?_below hnone hl]
          exact nofun
        · exact h.plain i hi l t hl
    apart := fun i j hi hj he => by
      obtain hin | hi := update_true.1 hi <;> obtain hjn | hj := update_true.1 hj
      · exact hin.trans hjn.symm
      · exact absurd (hin ▸ he) (hother j hj)
      · exact absurd (hjn ▸ he.symm) (hother i hi)
      · exact h.apart i j hi hj he }

/-- A file that is written into a directory changes nothing elsewhere. -/
theorem write (h : Lodging fs₀ base name held ground b fs) (hn : held n = true)
    (hs : IsSegment (name n)) {m : Bytes} (hm : IsSegment m) {f : File}
    (hw : fs.write ((base.join ⟨name n⟩).join ⟨m⟩) f = .ok fs') :
    Lodging fs₀ base name held ground b fs' := by
  have hin : (name n :: b) <:+ m :: name n :: b := List.suffix_cons _ _
  obtain rfl | ⟨x, hname, hd, hn', rfl⟩ := FileSystem.write_below (h.reaches hn) hs hm
    (fun t => h.plain n hn _ t (List.suffix_refl _)) (fun t => h.plain n hn _ t hin) hw
  · exact h
  · exact {
      grown := h.grown
      cwd := h.cwd
      outside := fun l hl => by
        rw [FileSystem.get?_insert, if_neg]
        · exact h.outside l hl
        · rintro rfl
          exact hl n hn hin
      leads := h.leads
      vacant := h.vacant
      home := fun i hi => by
        rw [FileSystem.get?_insert, if_neg]
        · exact h.home i hi
        · exact fun he => absurd (congrArg List.length he) (by simp)
      askable := h.askable
      plain := fun i hi l t hl => by
        rw [FileSystem.get?_insert]
        split
        · exact nofun
        · exact h.plain i hi l t hl
      apart := h.apart }

/-- Who holds a directory can remove it, and then all is gone that was in it. -/
theorem leave (h : Lodging fs₀ base name held ground b fs) (hn : held n = true)
    (hs : IsSegment (name n)) : fs.removeTree (base.join ⟨name n⟩) = .ok (fs.erase (name n) b) ∧
      Lodging fs₀ base name (Function.update held n false) ground b (fs.erase (name n) b) := by
  refine ⟨FileSystem.removeTree_of_below (h.reaches hn) hs (h.askable n hn) (h.home n hn), ?_⟩
  exact {
    grown := h.grown
    cwd := h.cwd
    outside := fun l hl => by
      rw [FileSystem.get?_erase]
      split
      next hin =>
        exact (FileSystem.get?_below (h.vacant n hn) (List.isSuffixOf_iff_suffix.1 hin)).symm
      next hout =>
        refine h.outside l fun i hi => ?_
        by_cases hin : i = n
        · subst hin
          exact fun hsuffix => hout (List.isSuffixOf_iff_suffix.2 hsuffix)
        · exact hl i (update_false.2 ⟨hin, hi⟩)
    leads := fun i hi => h.leads i (update_false.1 hi).2
    vacant := fun i hi => h.vacant i (update_false.1 hi).2
    home := fun i hi => by
      obtain ⟨hne, hi⟩ := update_false.1 hi
      rw [FileSystem.get?_erase, if_neg]
      · exact h.home i hi
      · intro hin
        have hsame := (List.isSuffixOf_iff_suffix.1 hin).eq_of_length rfl
        exact hne (h.apart i n hi hn (List.cons.inj hsame).1.symm)
    askable := fun i hi => h.askable i (update_false.1 hi).2
    plain := fun i hi l t hl => by
      rw [FileSystem.get?_erase]
      split
      · exact nofun
      · exact h.plain i (update_false.1 hi).2 l t hl
    apart := fun i j hi hj => h.apart i j (update_false.1 hi).2 (update_false.1 hj).2 }

/-! ### Seen from outside -/

/-- What is not as at the start is a directory at the base or above it, or in the directory of
somebody. -/
theorem entry (h : Lodging fs₀ base name held ground b fs) {e : Entry} (he : fs.get? l = some e) :
    fs₀.get? l = some e ∨ (e = .dir ∧ ∃ q, base.Above q ∧ fs.openDir q = .ok l) ∨
      ∃ i, held i = true ∧ (name i :: b) <:+ l := by
  by_cases hin : ∃ i, held i = true ∧ (name i :: b) <:+ l
  · exact .inr (.inr hin)
  · rw [h.outside l fun i hi hl => hin ⟨i, hi, hl⟩] at he
    refine (h.grown.added l e he).imp_right fun ⟨hdir, q, hq, hl⟩ => .inl ⟨hdir, q, hq, ?_⟩
    exact FileSystem.openDir_mono h.within hl

/-- The home of a directory that is held was not there at the start. -/
theorem vacant_start (h : Lodging fs₀ base name held ground b fs) (hn : held n = true) :
    fs₀.get? (name n :: b) = none := by
  by_contra hsome
  obtain ⟨e, he⟩ := Option.ne_none_iff_exists'.1 hsome
  cases (h.vacant n hn).symm.trans (h.grown.within.get? _ e he)

/-- Seen from outside the files are intact but for the directories that are held. -/
theorem intact (h : Lodging fs₀ base name held ground b fs)
    (hs : ∀ i, held i = true → IsSegment (name i)) :
    fs₀.Intact base (fun i => base.join ⟨name i⟩) (held · = true) fs where
  within := h.grown.within.trans h.within
  added l e he := by
    obtain hold | hbase | ⟨i, hi, hl⟩ := h.entry he
    · exact .inl hold
    · exact .inr (.inl hbase)
    · exact .inr (.inr ⟨i, _, hi, h.lookup (hs i hi) hi, h.vacant_start hi, hl⟩)

end Lodging

end Assay
