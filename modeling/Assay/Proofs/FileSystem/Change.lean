import Assay.Proofs.FileSystem.Sight

/-!
# FileSystem — changes that are not seen and changes that are

A change at or below a bad name is not seen (`same_insert`, `same_erase`). A change at a path that
avoids the bad names is the same in file systems that cannot be told apart, and they cannot be told
apart after it (`makeDir_same`, `write_same`, `removeTree_same`).
-/

namespace Assay.FileSystem

variable {fs fs' : FileSystem} {bad : Bytes → Prop} {b d : Loc} {n : Bytes} {p : Path}

/-! ### Out of sight -/

/-- Whether a place is at a bad name in the directory or below it. -/
theorem not_clear {l : Loc} (hn : bad n) (h : (n :: b) <:+ l) : ¬ Clear bad b l :=
  fun hl => hl n hn h

/-- What is put at a bad name or below it is out of sight. -/
theorem same_insert {m : Bytes} {e : Entry} {name hd hm} (hn : bad n) (h : (n :: b) <:+ m :: d) :
    Same bad b (fs.insert m d e name hd hm) fs where
  cwd := rfl
  get? l hl := by
    rw [get?_insert, if_neg]
    rintro rfl
    exact not_clear hn h hl

/-- To remove what has a bad name changes nothing that is in sight. -/
theorem same_erase (hn : bad n) : Same bad b (fs.erase n b) fs where
  cwd := rfl
  get? l hl := by
    rw [get?_erase, if_neg]
    intro hs
    exact not_clear hn (List.isSuffixOf_iff_suffix.1 hs) hl

/-! ### In sight -/

/-- Whether two changes fail in the same way, or succeed and cannot be told apart after it. -/
def SameOutcome (bad : Bytes → Prop) (b : Loc) :
    Except Fault FileSystem → Except Fault FileSystem → Prop
  | .ok fs, .ok fs'         => Same bad b fs fs'
  | .error why, .error why' => why = why'
  | _, _                    => False

/-- The same entry can be put into both trees. -/
theorem Same.insert {e : Entry} {name hd hn hd' hn'} (h : Same bad b fs fs') :
    Same bad b (fs.insert n d e name hd hn) (fs'.insert n d e name hd' hn') where
  cwd := h.cwd
  get? l hl := by
    rw [get?_insert, get?_insert, h.get? l hl]

/-- The same location can be removed from both trees. -/
theorem Same.erase (h : Same bad b fs fs') : Same bad b (fs.erase n d) (fs'.erase n d) where
  cwd := h.cwd
  get? l hl := by
    rw [get?_erase, get?_erase, h.get? l hl]

/-- To put an entry where both trees are in sight comes to the same in both. -/
theorem put_same {e : Entry} (h : Same bad b fs fs') (hn : Clear bad b (n :: d)) :
    SameOutcome bad b (fs.put n d e) (fs'.put n d e) := by
  have hd : fs.get? d = fs'.get? d := h.get? d hn.tail
  have hn' : fs.get? (n :: d) = fs'.get? (n :: d) := h.get? _ hn
  simp only [put, hd, hn']
  split
  · split
    · split
      · rfl
      · exact h.insert
    · rfl
  · rfl

/-- A directory is made in both trees or fails in both by the same cause. -/
theorem makeDir_same (h : Same bad b fs fs') (hp : Plain bad b fs') (ha : Avoids bad p.steps) :
    SameOutcome bad b (fs.makeDir p) (fs'.makeDir p) := by
  rw [makeDir, makeDir, resolve_same h hp ha]
  cases hr : fs'.resolve .makeDir p with
  | error why => rfl
  | ok target =>
    cases target with
    | occupied l e => rfl
    | vacant n d => exact put_same h (clear_of_resolve hp ha hr)

/-- A file is written in both trees or fails in both by the same cause. -/
theorem write_same {f : File} (h : Same bad b fs fs') (hp : Plain bad b fs')
    (ha : Avoids bad p.steps) : SameOutcome bad b (fs.write p f) (fs'.write p f) := by
  rw [write, write, resolve_same h hp ha]
  cases hr : fs'.resolve .write p with
  | error why => rfl
  | ok target =>
    have hclear := clear_of_resolve hp ha hr
    cases target with
    | vacant n d => exact put_same h hclear
    | occupied l e =>
      cases e with
      | device v =>
        simp only [bind, Except.bind]
        split
        · rfl
        · exact h
      | dir | link => cases l <;> rfl
      | file g =>
        cases l with
        | nil => rfl
        | cons n d => exact put_same h hclear

/-- A tree is removed from both or stays in both by the same cause. -/
theorem removeTree_same (h : Same bad b fs fs') (hp : Plain bad b fs') (ha : Avoids bad p.steps) :
    SameOutcome bad b (fs.removeTree p) (fs'.removeTree p) := by
  rw [removeTree, removeTree, lookup_same h hp ha]
  cases fs'.lookup false p with
  | error why => rfl
  | ok found =>
    obtain ⟨l, e⟩ := found
    cases l with
    | nil => cases e <;> rfl
    | cons n d => cases e <;> first | rfl | exact h.erase

/-- The files after a change that may fail. -/
theorem SameOutcome.getD {r r' : Except Fault FileSystem} (h : SameOutcome bad b r r')
    (hs : Same bad b fs fs') : Same bad b (r.toOption.getD fs) (r'.toOption.getD fs') := by
  cases r <;> cases r' <;> first | exact h | exact hs | exact h.elim

/-! ### Everywhere -/

/-- Whether two file systems hold the same everywhere. -/
def Agree (fs fs' : FileSystem) : Prop := Same (fun _ => False) [] fs fs'

/-- Trees agree if they have the same working directory and the same view. -/
theorem agree_iff : Agree fs fs' ↔ fs.cwd = fs'.cwd ∧ ∀ l, fs.get? l = fs'.get? l :=
  ⟨fun h => ⟨h.cwd, fun l => h.get? l fun _ => False.elim⟩, fun h => ⟨h.1, fun l _ => h.2 l⟩⟩

/-- Trees with the same view are the same whatever is out of sight. -/
theorem Agree.same (h : Agree fs fs') : Same bad b fs fs' :=
  ⟨h.cwd, fun l _ => (agree_iff.1 h).2 l⟩

theorem plain_nowhere (fs : FileSystem) : Plain (fun _ => False) [] fs :=
  ⟨fun _ => False.elim, fun _ _ _ _ _ _ => id⟩

theorem makeDir_agree (h : Agree fs fs') (p : Path) :
    SameOutcome (fun _ => False) [] (fs.makeDir p) (fs'.makeDir p) :=
  makeDir_same h (plain_nowhere fs') fun _ _ => id

/-- Makes one directory, which may be there already. -/
def ensureDir (fs : FileSystem) (p : Path) : Except Fault Unit × FileSystem :=
  match fs.makeDir p with
  | .ok fs'   => (.ok (), fs')
  | .error why => (if fs.isDir p then .ok () else .error why, fs)

/-- Unless the parent is missing, one directory is all that is made. -/
theorem makeDirsUpTo_of_ne {k : Nat} (hp : p.isEmpty = false)
    (h : fs.makeDir p ≠ .error (.os .notFound)) :
    makeDirsUpTo (k + 1) fs p = fs.ensureDir p := by
  rw [makeDirsUpTo, if_neg (by rw [hp]; exact Bool.false_ne_true), ensureDir]
  split
  next hm => rw [hm]
  next hm => exact absurd hm h
  next hm => rw [hm]

/-- Where the parent is missing, it is made first and the directory is tried again. -/
theorem makeDirsUpTo_of_notFound {k : Nat} (hp : p.isEmpty = false)
    (h : fs.makeDir p = .error (.os .notFound)) :
    makeDirsUpTo (k + 1) fs p =
      match p.parent? with
      | none   => (.error (.other "failed to create whole tree"), fs)
      | some q =>
        match makeDirsUpTo k fs q with
        | (.error why, fs') => (.error why, fs')
        | (.ok (), fs')     => fs'.ensureDir p := by
  rw [makeDirsUpTo, if_neg (by rw [hp]; exact Bool.false_ne_true), h]
  rfl

/-- One directory is made, or found, in both of two file systems that hold the same. -/
theorem ensureDir_same (h : Agree fs fs') :
    (fs.ensureDir p).1 = (fs'.ensureDir p).1 ∧
      Agree (fs.ensureDir p).2 (fs'.ensureDir p).2 := by
  have hm := makeDir_agree h p
  rw [ensureDir, ensureDir, isDir_same h (plain_nowhere fs') fun _ _ => id]
  cases hfs : fs.makeDir p <;> cases hfs' : fs'.makeDir p <;> rw [hfs, hfs'] at hm
  · obtain rfl := (hm : _ = _)
    exact ⟨rfl, h⟩
  · exact hm.elim
  · exact hm.elim
  · exact ⟨rfl, hm⟩

/-- The parent is missing from both trees or from none. -/
theorem notFound_same (h : Agree fs fs') :
    fs.makeDir p = .error (.os .notFound) ↔ fs'.makeDir p = .error (.os .notFound) := by
  have hm := makeDir_agree h p
  cases hfs : fs.makeDir p <;> cases hfs' : fs'.makeDir p <;> rw [hfs, hfs'] at hm
  · obtain rfl := (hm : _ = _)
    exact ⟨congrArg _ ∘ Except.error.inj, congrArg _ ∘ Except.error.inj⟩
  · exact hm.elim
  · exact hm.elim
  · exact iff_of_false nofun nofun

/-- Which directories can be made is the same in file systems that hold the same, and they hold the
same after it. -/
theorem makeDirsUpTo_same {k : Nat} (h : Agree fs fs') :
    (makeDirsUpTo k fs p).1 = (makeDirsUpTo k fs' p).1 ∧
      Agree (makeDirsUpTo k fs p).2 (makeDirsUpTo k fs' p).2 := by
  induction k generalizing p with
  | zero => exact ⟨rfl, h⟩
  | succ k ih =>
    cases hp : p.isEmpty with
    | true =>
      rw [makeDirsUpTo, makeDirsUpTo, if_pos hp, if_pos hp]
      exact ⟨rfl, h⟩
    | false =>
      -- the directories above are made first only where the path is not found, in both alike
      by_cases hm : fs.makeDir p = .error (.os .notFound)
      · rw [makeDirsUpTo_of_notFound hp hm, makeDirsUpTo_of_notFound hp ((notFound_same h).1 hm)]
        cases p.parent? with
        | none => exact ⟨rfl, h⟩
        | some q =>
          obtain ⟨hmade, hagree⟩ := ih (p := q)
          simp only
          cases hup : makeDirsUpTo k fs q with
          | mk made fs₁ =>
            cases hup' : makeDirsUpTo k fs' q with
            | mk made' fs₁' =>
              rw [hup, hup'] at hmade hagree
              obtain rfl : made = made' := hmade
              cases made with
              | error why => exact ⟨rfl, hagree⟩
              | ok _ => exact ensureDir_same hagree
      · rw [makeDirsUpTo_of_ne hp hm, makeDirsUpTo_of_ne hp (mt (notFound_same h).2 hm)]
        exact ensureDir_same h

/-- Missing directories are made alike in trees with the same view. -/
theorem makeDirs_same (h : Agree fs fs') :
    (fs.makeDirs p).1 = (fs'.makeDirs p).1 ∧ Agree (fs.makeDirs p).2 (fs'.makeDirs p).2 :=
  makeDirsUpTo_same h

end Assay.FileSystem
