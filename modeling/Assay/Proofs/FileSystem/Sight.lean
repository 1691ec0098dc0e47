import Assay.Proofs.FileSystem.Lookup
import Mathlib.Data.List.Basic

/-!
# FileSystem — what can be seen without some names

A place is clear of some names in a directory if it is not at or below an entry of that directory
that has one of them. Two file systems that hold the same at all clear places (`Same`) cannot be
told apart by paths that never enter one of the names: every way along such a path stays at clear
places (`walk_same`), as long as no symbolic link there names what is hidden (`Plain`).
-/

namespace Assay.FileSystem

/-- Whether a place is not at or below an entry of the directory `b` with a bad name. -/
def Clear (bad : Bytes → Prop) (b l : Loc) : Prop := ∀ n, bad n → ¬ (n :: b) <:+ l

/-- Whether no step enters a bad name. -/
def Avoids (bad : Bytes → Prop) (r : List Step) : Prop := ∀ n, .enter n ∈ r → ¬ bad n

/-- Whether two file systems hold the same wherever it is clear. -/
structure Same (bad : Bytes → Prop) (b : Loc) (fs fs' : FileSystem) : Prop where
  cwd : fs.cwd = fs'.cwd
  get? : ∀ l, Clear bad b l → fs.get? l = fs'.get? l

/-- Whether no way leads from a clear place to one that is not, except through a bad name. -/
structure Plain (bad : Bytes → Prop) (b : Loc) (fs : FileSystem) : Prop where
  cwd : Clear bad b fs.cwd
  links : ∀ l t, Clear bad b l → fs.get? l = some (.link t) → Avoids bad t.steps

variable {bad bad' : Bytes → Prop} {b l d : Loc} {n : Bytes} {r : List Step}

theorem clear_nil : Clear bad b [] := fun _ _ h => nomatch List.suffix_nil.1 h

/-- The directory of a location in sight is in sight. -/
theorem Clear.tail (h : Clear bad b l) : Clear bad b l.tail := fun n hn hs =>
  h n hn (hs.trans (List.tail_suffix l))

/-- An entry of a directory in sight is in sight unless its name is bad. -/
theorem Clear.cons (h : Clear bad b l) (hn : ¬ bad n) : Clear bad b (n :: l) := fun m hm hs => by
  obtain he | hs := List.suffix_cons_iff.1 hs
  · exact hn ((List.cons.inj he).1 ▸ hm)
  · exact h m hm hs

/-- Fewer bad names leave more places clear. -/
theorem Clear.mono (h : Clear bad b l) (hbad : ∀ n, bad' n → bad n) : Clear bad' b l :=
  fun n hn => h n (hbad n hn)

/-- Two ways that avoid bad names avoid them one after the other. -/
theorem Avoids.append {r' : List Step} (h : Avoids bad r) (h' : Avoids bad r') :
    Avoids bad (r ++ r') := fun n hn =>
  (List.mem_append.1 hn).elim (h n) (h' n)

namespace Same

variable {fs fs' fs'' : FileSystem}

theorem refl (fs : FileSystem) : Same bad b fs fs := ⟨rfl, fun _ _ => rfl⟩

theorem symm (h : Same bad b fs fs') : Same bad b fs' fs :=
  ⟨h.cwd.symm, fun l hl => (h.get? l hl).symm⟩

theorem trans (h : Same bad b fs fs') (h' : Same bad b fs' fs'') : Same bad b fs fs'' :=
  ⟨h.cwd.trans h'.cwd, fun l hl => (h.get? l hl).trans (h'.get? l hl)⟩

/-- More bad names hide more. -/
theorem mono (h : Same bad' b fs fs') (hbad : ∀ n, bad' n → bad n) : Same bad b fs fs' :=
  ⟨h.cwd, fun l hl => h.get? l (hl.mono hbad)⟩

/-- In sight the same locations are directories. -/
theorem isDirAt (h : Same bad b fs fs') (hl : Clear bad b l) : fs.isDirAt l = fs'.isDirAt l := by
  rw [FileSystem.isDirAt, FileSystem.isDirAt, h.get? l hl]

end Same

/-! ### Along a way -/

/-- Whether what a path leads to is at a clear place. -/
def Target.Clear (bad : Bytes → Prop) (b : Loc) : Target → Prop
  | .occupied l _ => FileSystem.Clear bad b l
  | .vacant n d   => FileSystem.Clear bad b (n :: d)

section

variable {fs fs' : FileSystem} {aim : Aim}
  {onLink onLink' : Loc → List Step → Except Errno Target}

/-- Where a link leads to is clear, and the steps that remain avoid the bad names. -/
theorem Plain.behind_link {t : Path} (hp : Plain bad b fs) (hl : Clear bad b l)
    (hn : Clear bad b (n :: l)) (ht : fs.get? (n :: l) = some (.link t)) (hr : Avoids bad r) :
    Clear bad b (if t.isAbsolute then [] else l) ∧ Avoids bad (t.steps ++ r) := by
  refine ⟨?_, (hp.links _ t hn ht).append hr⟩
  split
  · exact clear_nil
  · exact hl

/-- A way that avoids bad names leads to the same in both trees, if links do. -/
theorem walkWith_same (h : Same bad b fs fs') (hp : Plain bad b fs')
    (hon : ∀ l r, Clear bad b l → Avoids bad r → onLink l r = onLink' l r)
    (hl : Clear bad b l) (hr : Avoids bad r) :
    fs.walkWith aim onLink l r = fs'.walkWith aim onLink' l r := by
  induction r generalizing l with
  | nil => simp only [walkWith, h.get? l hl]
  | cons s r ih =>
    have hrest : Avoids bad r := fun n hn => hr n (List.mem_cons_of_mem _ hn)
    cases s with
    | stay | slash => simp only [walkWith, h.isDirAt hl, ih hl hrest]
    | up => simp only [walkWith, h.isDirAt hl, ih hl.tail hrest]
    | enter n =>
      have hn : Clear bad b (n :: l) := hl.cons (hr n List.mem_cons_self)
      simp only [walkWith, h.isDirAt hl, h.get? _ hn]
      cases he : fs'.get? (n :: l) with
      | none => rfl
      | some e =>
        cases e with
        | link t =>
          obtain ⟨hstart, hsteps⟩ := hp.behind_link hl hn he hrest
          simp only [hon _ _ hstart hsteps]
        | dir | file | device => simp only [ih hn hrest]

/-- A way that avoids bad names ends in sight, if links do. -/
theorem clear_of_walkWith (hp : Plain bad b fs) {t : Target}
    (hon : ∀ l r, Clear bad b l → Avoids bad r → onLink l r = .ok t → t.Clear bad b)
    (hl : Clear bad b l) (hr : Avoids bad r) (ht : fs.walkWith aim onLink l r = .ok t) :
    t.Clear bad b := by
  induction r generalizing l with
  | nil =>
    simp only [walkWith] at ht
    split at ht
    · cases ht
      exact hl
    · cases ht
  | cons s r ih =>
    have hrest : Avoids bad r := fun n hn => hr n (List.mem_cons_of_mem _ hn)
    cases s with
    | stay | slash =>
      simp only [walkWith] at ht
      split at ht
      · exact ih hl hrest ht
      · cases ht
    | up =>
      simp only [walkWith] at ht
      split at ht
      · exact ih hl.tail hrest ht
      · cases ht
    | enter n =>
      have hn : Clear bad b (n :: l) := hl.cons (hr n List.mem_cons_self)
      simp only [walkWith] at ht
      split at ht
      · cases ht
      split at ht
      · cases ht
      split at ht
      · cases ht
      split at ht
      · split at ht
        · cases ht
          exact hn
        · cases ht
      next target he =>
        split at ht
        · cases ht
          exact hn
        · obtain ⟨hstart, hsteps⟩ := hp.behind_link hl hn he hrest
          exact hon _ _ hstart hsteps ht
      · split at ht
        · cases ht
          exact hn
        · exact ih hn hrest ht

/-- Ways that avoid the bad names lead to the same. -/
theorem walk_same (h : Same bad b fs fs') (hp : Plain bad b fs') (k : Nat) (hl : Clear bad b l)
    (hr : Avoids bad r) : fs.walk aim k l r = fs'.walk aim k l r := by
  induction k generalizing l r with
  | zero =>
    rw [walk, walk]
    exact walkWith_same h hp (fun _ _ _ _ => rfl) hl hr
  | succ k ih =>
    rw [walk, walk]
    exact walkWith_same h hp (fun _ _ => ih) hl hr

/-- A way that avoids bad names ends in sight, also through links. -/
theorem clear_of_walk (hp : Plain bad b fs) {k : Nat} (hl : Clear bad b l) (hr : Avoids bad r)
    {t : Target} (ht : fs.walk aim k l r = .ok t) : t.Clear bad b := by
  induction k generalizing l r with
  | zero =>
    rw [walk] at ht
    refine clear_of_walkWith hp (fun _ _ _ _ hlink => ?_) hl hr ht
    cases hlink
  | succ k ih =>
    rw [walk] at ht
    exact clear_of_walkWith hp (fun _ _ => ih) hl hr ht

/-! ### At a path -/

variable {p : Path}

/-- Where a path starts is clear. -/
theorem Plain.start (hp : Plain bad b fs) (p : Path) :
    Clear bad b (if p.isAbsolute then [] else fs.cwd) := by
  split
  · exact clear_nil
  · exact hp.cwd

/-- A path that avoids bad names means the same in both trees. -/
theorem resolve_same (h : Same bad b fs fs') (hp : Plain bad b fs') (ha : Avoids bad p.steps) :
    fs.resolve aim p = fs'.resolve aim p := by
  rw [resolve, resolve, h.cwd, walk_same h hp _ (hp.start p) ha]

/-- A path that avoids bad names means a location in sight. -/
theorem clear_of_resolve (hp : Plain bad b fs) (ha : Avoids bad p.steps) {t : Target}
    (ht : fs.resolve aim p = .ok t) : t.Clear bad b :=
  clear_of_walk hp (hp.start p) ha (resolve_eq_ok.1 ht).2

/-- What is found at such a path is the same in both trees. -/
theorem lookup_same (h : Same bad b fs fs') (hp : Plain bad b fs') (ha : Avoids bad p.steps)
    (follow : Bool) : fs.lookup follow p = fs'.lookup follow p := by
  rw [lookup, lookup, resolve_same h hp ha]

/-- What is found at such a path stands in sight. -/
theorem clear_of_lookup (hp : Plain bad b fs) (ha : Avoids bad p.steps) {follow : Bool} {e : Entry}
    (ht : fs.lookup follow p = .ok (l, e)) : Clear bad b l :=
  clear_of_resolve hp ha (lookup_eq_ok.1 ht)

theorem isDir_same (h : Same bad b fs fs') (hp : Plain bad b fs') (ha : Avoids bad p.steps) :
    fs.isDir p = fs'.isDir p := by
  rw [isDir, isDir, lookup_same h hp ha]

theorem openDir_same (h : Same bad b fs fs') (hp : Plain bad b fs') (ha : Avoids bad p.steps) :
    fs.openDir p = fs'.openDir p := by
  rw [openDir, openDir, lookup_same h hp ha]

theorem openFile_same (h : Same bad b fs fs') (hp : Plain bad b fs') (ha : Avoids bad p.steps) :
    fs.openFile p = fs'.openFile p := by
  rw [openFile, openFile, lookup_same h hp ha]

theorem read_same (h : Same bad b fs fs') (hp : Plain bad b fs') (ha : Avoids bad p.steps) :
    fs.read p = fs'.read p := by
  rw [read, read, openFile_same h hp ha]

end

end Assay.FileSystem
