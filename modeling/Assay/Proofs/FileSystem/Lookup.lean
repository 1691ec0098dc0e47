import Assay.FileSystem.Operations

/-!
# FileSystem — what is found at a path

What a path leads to stands where it leads (`get?_of_lookup`). A file system that holds less finds
nothing else at any path (`lookup_mono`). So a tree that has been removed is found no more at its
path, whatever symbolic links the path goes through (`lookup_removeTree`).
-/

namespace Assay.FileSystem

/-- Whether a file system holds nothing but what another holds at the same location. -/
structure Within (fs' fs : FileSystem) : Prop where
  cwd : fs'.cwd = fs.cwd
  get? : ∀ l e, fs'.get? l = some e → fs.get? l = some e

variable {fs fs' : FileSystem} {aim : Aim} {onLink onLink' : Loc → List Step → Except Errno Target}
  {l l' : Loc} {e : Entry}

/-- Where nothing stands by now, nothing stood before. -/
theorem Within.get?_eq_none (h : fs'.Within fs) (hnone : fs.get? l = none) : fs'.get? l = none :=
  Option.eq_none_iff_forall_ne_some.2 fun e he => by cases hnone.symm.trans (h.get? l e he)

/-- What is a directory in a part of the tree is one in the whole. -/
theorem Within.isDirAt (h : fs'.Within fs) (hd : fs'.isDirAt l = true) : fs.isDirAt l = true :=
  beq_iff_eq.2 (h.get? l .dir (beq_iff_eq.1 hd))

/-! ### One walk -/

/-- How a walk goes on behind an entry. -/
def onward (fs : FileSystem) (aim : Aim) (onLink : Loc → List Step → Except Errno Target)
    (n : Bytes) (l : Loc) (r : List Step) : Entry → Except Errno Target
  | .link t =>
    if aim.endsBefore r && !aim.follows then .ok (.occupied (n :: l) (.link t))
    else onLink (if t.isAbsolute then [] else l) (t.steps ++ r)
  | e =>
    if aim.endsBefore r then .ok (.occupied (n :: l) e) else fs.walkWith aim onLink (n :: l) r

/-- A step into a directory that leads to an entry passes one, and may be asked for. -/
theorem walkWith_enter {n : Bytes} {r : List Step} :
    fs.walkWith aim onLink l (.enter n :: r) = .ok (.occupied l' e) ↔
      (fs.isDirAt l = true ∧ ¬ (aim = .write ∧ r = [.slash]) ∧ ¬ nameLimit < n.length) ∧
        ∃ e', fs.get? (n :: l) = some e' ∧
          fs.onward aim onLink n l r e' = .ok (.occupied l' e) := by
  rw [walkWith]
  by_cases hd : fs.isDirAt l = true
  · by_cases hs : aim = .write ∧ r = [.slash]
    · simp [hd, hs]
    · by_cases hn : nameLimit < n.length
      · simp [hd, hs, hn]
      · rw [if_neg (by simp [hd]), if_neg hs, if_neg hn, and_iff_right ⟨hd, hs, hn⟩]
        cases hg : fs.get? (n :: l) with
        | none => by_cases hend : aim.endsBefore r = true <;> simp [hend]
        | some e' => cases e' <;> simp [onward]
  · simp [hd]

/-- What a walk finds stands where it is found. -/
theorem get?_of_walkWith (hon : ∀ l r, onLink l r = .ok (.occupied l' e) → fs.get? l' = some e)
    {r : List Step} (h : fs.walkWith aim onLink l r = .ok (.occupied l' e)) :
    fs.get? l' = some e := by
  induction r generalizing l with
  | nil =>
    simp only [walkWith] at h
    split at h
    next he => cases h; exact he
    next => cases h
  | cons s r ih =>
    cases s with
    | stay | slash | up =>
      simp only [walkWith] at h
      split at h
      · exact ih h
      · cases h
    | enter n =>
      obtain ⟨-, e', he, h⟩ := walkWith_enter.1 h
      cases e' with
      | link t =>
        simp only [onward] at h
        split at h
        · cases h; exact he
        · exact hon _ _ h
      | dir | file | device =>
        simp only [onward] at h
        split at h
        · cases h; exact he
        · exact ih h

/-- A walk through less that finds something finds the same through more. -/
theorem walkWith_mono (hw : fs'.Within fs)
    (hon : ∀ l r, onLink' l r = .ok (.occupied l' e) → onLink l r = .ok (.occupied l' e))
    {r : List Step} (h : fs'.walkWith aim onLink' l r = .ok (.occupied l' e)) :
    fs.walkWith aim onLink l r = .ok (.occupied l' e) := by
  induction r generalizing l with
  | nil =>
    simp only [walkWith] at h ⊢
    split at h
    next he => rw [hw.get? _ _ he]; exact h
    next => cases h
  | cons s r ih =>
    cases s with
    | stay | slash | up =>
      simp only [walkWith] at h ⊢
      split at h
      next hd => rw [if_pos (hw.isDirAt hd)]; exact ih h
      next => cases h
    | enter n =>
      obtain ⟨⟨hd, hs⟩, e', he, h⟩ := walkWith_enter.1 h
      refine walkWith_enter.2 ⟨⟨hw.isDirAt hd, hs⟩, e', hw.get? _ _ he, ?_⟩
      cases e' with
      | link t =>
        simp only [onward] at h ⊢
        split at h
        next hend => rw [if_pos hend]; exact h
        next hend => rw [if_neg hend]; exact hon _ _ h
      | dir | file | device =>
        simp only [onward] at h ⊢
        split at h
        next hend => rw [if_pos hend]; exact h
        next hend => rw [if_neg hend]; exact ih h

/-! ### Through symbolic links -/

/-- A walk that ends at an entry ends where that stands. -/
theorem get?_of_walk {k : Nat} {r : List Step} (h : fs.walk aim k l r = .ok (.occupied l' e)) :
    fs.get? l' = some e := by
  induction k generalizing l r with
  | zero =>
    rw [walk] at h
    exact get?_of_walkWith (fun _ _ h => by cases h) h
  | succ k ih =>
    rw [walk] at h
    exact get?_of_walkWith (fun _ _ h => ih h) h

/-- A walk that comes to an entry goes the same way in a tree with more entries. -/
theorem walk_mono (hw : fs'.Within fs) {k : Nat} {r : List Step}
    (h : fs'.walk aim k l r = .ok (.occupied l' e)) : fs.walk aim k l r = .ok (.occupied l' e) := by
  induction k generalizing l r with
  | zero =>
    rw [walk] at h ⊢
    exact walkWith_mono hw (fun _ _ h => h) h
  | succ k ih =>
    rw [walk] at h ⊢
    exact walkWith_mono hw (fun _ _ h => ih h) h

/-! ### At a path -/

variable {follow : Bool} {p : Path}

/-- Whether a path can be asked for at all. -/
def Askable (p : Path) : Prop :=
  p.bytes.contains 0 = false ∧ p.isEmpty = false ∧ p.bytes.length ≤ pathLimit

/-- A path leads where a walk along its steps leads. -/
theorem resolve_eq_ok {t : Target} :
    fs.resolve aim p = .ok t ↔ Askable p ∧
      fs.walk aim linkLimit (if p.isAbsolute then [] else fs.cwd) p.steps = .ok t := by
  rw [resolve]
  split
  next h0 => exact iff_of_false nofun fun h => Bool.noConfusion (h0.symm.trans h.1.1)
  next h0 =>
    split
    next he => exact iff_of_false nofun fun h => Bool.noConfusion (he.symm.trans h.1.2.1)
    next he =>
      split
      next hlen => exact iff_of_false nofun fun h => absurd hlen (Nat.not_lt.2 h.1.2.2)
      next hlen =>
        rw [and_iff_right ⟨Bool.eq_false_iff.2 h0, Bool.eq_false_iff.2 he, Nat.not_lt.1 hlen⟩]
        cases fs.walk aim linkLimit (if p.isAbsolute then [] else fs.cwd) p.steps with
        | error why => exact iff_of_false nofun nofun
        | ok t' =>
          exact ⟨fun h => congrArg _ (Except.ok.inj h), fun h => congrArg _ (Except.ok.inj h)⟩

/-- To look a path up is to walk to what it names. -/
theorem lookup_eq_ok :
    fs.lookup follow p = .ok (l, e) ↔ fs.resolve (.find follow) p = .ok (.occupied l e) := by
  rw [lookup]
  cases fs.resolve (.find follow) p with
  | error why => exact iff_of_false nofun nofun
  | ok t =>
    cases t with
    | vacant n d => exact iff_of_false nofun nofun
    | occupied l' e' =>
      refine ⟨fun h => ?_, fun h => ?_⟩
      · cases h
        rfl
      · cases h
        rfl

/-- What is looked up stands where it was found. -/
theorem get?_of_lookup (h : fs.lookup follow p = .ok (l, e)) : fs.get? l = some e :=
  get?_of_walk (resolve_eq_ok.1 (lookup_eq_ok.1 h)).2

/-- A directory can be opened exactly if the path leads to one. -/
theorem openDir_eq_ok : fs.openDir p = .ok l ↔ fs.lookup true p = .ok (l, .dir) := by
  rw [openDir]
  cases fs.lookup true p with
  | error why => exact iff_of_false nofun nofun
  | ok found =>
    obtain ⟨l', e⟩ := found
    cases e with
    | dir =>
      refine ⟨fun h => ?_, fun h => ?_⟩
      · cases h
        rfl
      · cases h
        rfl
    | file | link | device => exact iff_of_false nofun nofun

/-- What is found at a path is found there in a tree with more entries. -/
theorem lookup_mono (hw : fs'.Within fs) (h : fs'.lookup follow p = .ok (l, e)) :
    fs.lookup follow p = .ok (l, e) := by
  obtain ⟨hp, hwalk⟩ := resolve_eq_ok.1 (lookup_eq_ok.1 h)
  rw [hw.cwd] at hwalk
  exact lookup_eq_ok.2 (resolve_eq_ok.2 ⟨hp, walk_mono hw hwalk⟩)

/-! ### After a removal -/

/-- What is left after a removal was there before. -/
theorem within_erase (fs : FileSystem) (n : Bytes) (d : Loc) : (fs.erase n d).Within fs where
  cwd := rfl
  get? l e h := by
    rw [get?_erase] at h
    split at h
    · cases h
    · exact h

/-- A tree that can be removed is a directory, or a symbolic link, at the end of the path. -/
theorem removeTree_eq_ok (h : fs.removeTree p = .ok fs') :
    ∃ n d e, fs.lookup false p = .ok (n :: d, e) ∧ fs' = fs.erase n d := by
  rw [removeTree] at h
  cases hl : fs.lookup false p with
  | error why => rw [hl] at h; cases h
  | ok found =>
    rw [hl] at h
    obtain ⟨l, e⟩ := found
    cases l with
    | nil => cases e <;> cases h
    | cons n d =>
      cases e with
      | dir | link => exact ⟨n, d, _, rfl, (Except.ok.inj h).symm⟩
      | file | device => cases h

/-- What has been removed is found no more. -/
theorem lookup_removeTree (h : fs.removeTree p = .ok fs') :
    (fs'.lookup false p).isOk = false := by
  obtain ⟨n, d, e, hl, rfl⟩ := removeTree_eq_ok h
  cases hl' : (fs.erase n d).lookup false p with
  | error why => rfl
  | ok found =>
    obtain ⟨l', e'⟩ := found
    have hsame := lookup_mono (within_erase fs n d) hl'
    obtain ⟨rfl, rfl⟩ := Prod.mk.inj (Except.ok.inj (hl.symm.trans hsame))
    have hstands := get?_of_lookup hl'
    rw [get?_erase, if_pos (List.isSuffixOf_iff_suffix.2 (List.suffix_refl _))] at hstands
    cases hstands

end Assay.FileSystem
