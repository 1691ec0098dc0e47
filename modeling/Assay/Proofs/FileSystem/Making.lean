import Assay.Proofs.FileSystem.Lookup

/-!
# FileSystem — making directories

A directory that was made is found where it was made (`isDir_of_makeDir`), and where a directory is
found none can be made (`makeDir_of_isDir`). So once all directories on the way to a path have been
made, to make them again changes nothing (`makeDirs_of_ready`, `ready_of_makeDirs`); if that fails,
those that were made stay (`grown_of_makeDirs`).
-/

namespace Assay

/-- A path itself and all paths above it. -/
inductive Path.Above (p : Path) : Path → Prop where
  | self : Above p p
  | parent {q r : Path} (h : Above p q) (hr : q.parent? = some r) : Above p r

/-- What is above the parent is above the path. -/
theorem Path.Above.of_parent {p q r : Path} (hq : p.parent? = some q) (h : q.Above r) :
    p.Above r := by
  induction h with
  | self => exact .parent .self hq
  | parent _ hr ih => exact .parent ih hr

namespace FileSystem

variable {fs fs' : FileSystem} {aim : Aim} {l d b : Loc} {n : Bytes} {r : List Step} {p : Path}
  {onLink onLink' : Loc → List Step → Except Errno Target}

/-! ### Where a directory is -/

/-- Where a directory is found something stands in the way of a new one. -/
theorem walkWith_makeDir
    (hon : ∀ l r, onLink l r = .ok (.occupied b .dir) → ∃ l' e, onLink' l r = .ok (.occupied l' e))
    (h : fs.walkWith (.find true) onLink l r = .ok (.occupied b .dir)) :
    ∃ l' e, fs.walkWith .makeDir onLink' l r = .ok (.occupied l' e) := by
  induction r generalizing l with
  | nil =>
    simp only [walkWith] at h ⊢
    split at h
    next e he => exact ⟨l, e, rfl⟩
    next => cases h
  | cons s r ih =>
    cases s with
    | stay | slash | up =>
      simp only [walkWith] at h ⊢
      split at h
      next hd =>
        rw [if_pos hd]
        exact ih h
      next => cases h
    | enter n =>
      obtain ⟨⟨hd, -, hlen⟩, e, he, honward⟩ := walkWith_enter.1 h
      have henter : ∀ {l' e'}, fs.onward .makeDir onLink' n l r e = .ok (.occupied l' e') →
          ∃ l' e', fs.walkWith .makeDir onLink' l (.enter n :: r) = .ok (.occupied l' e') :=
        fun h' => ⟨_, _, walkWith_enter.2 ⟨⟨hd, by simp, hlen⟩, e, he, h'⟩⟩
      cases hend : Aim.makeDir.endsBefore r with
      | true =>
        -- what stands there is not looked into
        cases e with
        | link t => exact henter (if_pos (by rw [hend]; rfl))
        | dir | file | device => exact henter (if_pos hend)
      | false =>
        have hr : r.isEmpty = false := by
          cases r with
          | nil => cases hend
          | cons s r => rfl
        cases e with
        | link t =>
          simp only [onward, Aim.follows, Bool.not_true, Bool.and_false, Bool.false_eq_true,
            if_false] at honward
          obtain ⟨l', e', h'⟩ := hon _ _ honward
          refine @henter l' e' ?_
          simp only [onward, hend, Bool.false_and, Bool.false_eq_true, if_false]
          exact h'
        | dir | file | device =>
          simp only [onward, Aim.endsBefore, hr, Bool.false_or] at honward
          obtain ⟨l', e', h'⟩ := ih honward
          refine @henter l' e' ?_
          simp only [onward, hend, Bool.false_eq_true, if_false]
          exact h'

/-- To make a directory where one is finds something there. -/
theorem walk_makeDir {k : Nat} (h : fs.walk (.find true) k l r = .ok (.occupied b .dir)) :
    ∃ l' e, fs.walk .makeDir k l r = .ok (.occupied l' e) := by
  induction k generalizing l r with
  | zero =>
    rw [walk] at h ⊢
    refine walkWith_makeDir (fun _ _ hlink => ?_) h
    cases hlink
  | succ k ih =>
    rw [walk] at h ⊢
    exact walkWith_makeDir (fun _ _ => ih) h

/-- There is a directory at a path exactly if it leads to one. -/
theorem isDir_iff : fs.isDir p = true ↔ ∃ l, fs.lookup true p = .ok (l, .dir) := by
  rw [isDir]
  split
  next l h => exact iff_of_true rfl ⟨l, h⟩
  next h => exact iff_of_false nofun fun ⟨l, hl⟩ => h l hl

/-- Where a directory is found none can be made. -/
theorem makeDir_of_isDir (h : fs.isDir p = true) : fs.makeDir p = .error (.os .exists) := by
  obtain ⟨b, hl⟩ := isDir_iff.1 h
  obtain ⟨hask, hwalk⟩ := resolve_eq_ok.1 (lookup_eq_ok.1 hl)
  obtain ⟨l', e, hocc⟩ := walk_makeDir hwalk
  rw [makeDir, resolve_eq_ok.2 ⟨hask, hocc⟩]
  rfl

/-! ### Where none is -/

/-- Nothing stands at a free place. -/
theorem get?_of_walkWith_vacant
    (hon : ∀ l r, onLink l r = .ok (.vacant n d) → fs.get? (n :: d) = none)
    (h : fs.walkWith aim onLink l r = .ok (.vacant n d)) : fs.get? (n :: d) = none := by
  induction r generalizing l with
  | nil =>
    simp only [walkWith] at h
    split at h <;> cases h
  | cons s r ih =>
    cases s with
    | stay | slash | up =>
      simp only [walkWith] at h
      split at h
      · exact ih h
      · cases h
    | enter m =>
      simp only [walkWith] at h
      split at h
      · cases h
      split at h
      · cases h
      split at h
      · cases h
      split at h
      next hnone =>
        split at h
        · cases h
          exact hnone
        · cases h
      · split at h
        · cases h
        · exact hon _ _ h
      · split at h
        · cases h
        · exact ih h

/-- A walk ends at a vacant place only where nothing stands. -/
theorem get?_of_walk_vacant {k : Nat} (h : fs.walk aim k l r = .ok (.vacant n d)) :
    fs.get? (n :: d) = none := by
  induction k generalizing l r with
  | zero =>
    rw [walk] at h
    refine get?_of_walkWith_vacant (fun _ _ hlink => ?_) h
    cases hlink
  | succ k ih =>
    rw [walk] at h
    exact get?_of_walkWith_vacant (fun _ _ => ih) h

/-- A way to a free place leads to the directory that is made there. -/
theorem walkWith_made (hw : fs.Within fs') (hd : fs'.get? (n :: d) = some .dir)
    (hon : ∀ l r, onLink l r = .ok (.vacant n d) → onLink' l r = .ok (.occupied (n :: d) .dir))
    (h : fs.walkWith .makeDir onLink l r = .ok (.vacant n d)) :
    fs'.walkWith (.find true) onLink' l r = .ok (.occupied (n :: d) .dir) := by
  induction r generalizing l with
  | nil =>
    simp only [walkWith] at h
    split at h <;> cases h
  | cons s r ih =>
    cases s with
    | stay | slash | up =>
      simp only [walkWith] at h ⊢
      split at h
      next hl =>
        rw [if_pos (hw.isDirAt hl)]
        exact ih h
      next => cases h
    | enter m =>
      simp only [walkWith] at h
      split at h
      · cases h
      next hl =>
        have hl' : fs'.isDirAt l = true := hw.isDirAt (by simpa using hl)
        split at h
        · cases h
        split at h
        · cases h
        next hlen =>
          have henter : ∀ e, fs'.get? (m :: l) = some e →
              fs'.onward (.find true) onLink' m l r e = .ok (.occupied (n :: d) .dir) →
              fs'.walkWith (.find true) onLink' l (.enter m :: r) = .ok (.occupied (n :: d) .dir) :=
            fun e he h' => walkWith_enter.2 ⟨⟨hl', by simp, hlen⟩, e, he, h'⟩
          split at h
          next =>
            split at h
            next hend =>
              cases h
              -- the way is at its end, but for a slash
              refine henter .dir hd ?_
              have hr : r = [] ∨ r = [.slash] := by
                cases r with
                | nil => exact .inl rfl
                | cons s r => exact .inr (by simpa [Aim.endsBefore] using hend)
              obtain rfl | rfl := hr
              · rfl
              · simp only [onward, Aim.endsBefore, walkWith, isDirAt, hd]
                rfl
            next => cases h
          next t he =>
            split at h
            · cases h
            · refine henter _ (hw.get? _ _ he) ?_
              simp only [onward, Aim.follows, Bool.not_true, Bool.and_false, Bool.false_eq_true,
                if_false]
              exact hon _ _ h
          next e hlink he =>
            split at h
            · cases h
            next hend =>
              refine henter e (hw.get? _ _ he) ?_
              have hr : r.isEmpty = false := by
                cases r with
                | nil => exact absurd rfl hend
                | cons s r => rfl
              cases e with
              | link t => exact absurd rfl (hlink t)
              | dir | file | device =>
                simp only [onward, Aim.endsBefore, hr, Bool.false_or]
                exact ih h

/-- The way to a directory that was missing leads to it once it is made. -/
theorem walk_made (hw : fs.Within fs') (hd : fs'.get? (n :: d) = some .dir) {k : Nat}
    (h : fs.walk .makeDir k l r = .ok (.vacant n d)) :
    fs'.walk (.find true) k l r = .ok (.occupied (n :: d) .dir) := by
  induction k generalizing l r with
  | zero =>
    rw [walk] at h ⊢
    refine walkWith_made hw hd (fun _ _ hlink => ?_) h
    cases hlink
  | succ k ih =>
    rw [walk] at h ⊢
    exact walkWith_made hw hd (fun _ _ => ih) h

/-! ### One directory and several -/

/-- An entry that can be put somewhere is inserted there. -/
theorem put_eq_ok {e : Entry} {d : Loc} (h : fs.put n d e = .ok fs') :
    ∃ name hd hn, fs' = fs.insert n d e name hd hn := by
  rw [put] at h
  split at h
  next name =>
    split at h
    next hd =>
      split at h
      · cases h
      next hn => exact ⟨name, hd, hn, (Except.ok.inj h).symm⟩
    next => cases h
  next => cases h

/-- A directory that is made stands where its path leads, where nothing stood. -/
theorem makeDir_eq_ok (h : fs.makeDir p = .ok fs') :
    ∃ n d name hd hn, fs.resolve .makeDir p = .ok (.vacant n d) ∧
      fs' = fs.insert n d .dir name hd hn := by
  rw [makeDir] at h
  cases hr : fs.resolve .makeDir p with
  | error why => rw [hr] at h; cases h
  | ok target =>
    rw [hr] at h
    cases target with
    | occupied l e => cases h
    | vacant n d =>
      obtain ⟨name, hd, hn, rfl⟩ := put_eq_ok (h : fs.put n d .dir = .ok fs')
      exact ⟨n, d, name, hd, hn, rfl, rfl⟩

/-- A tree with one entry more, where nothing stood. -/
theorem within_insert {e : Entry} {name hd hn} (h : fs.get? (n :: d) = none) :
    fs.Within (fs.insert n d e name hd hn) where
  cwd := rfl
  get? l e' he := by
    rw [get?_insert, if_neg]
    · exact he
    · rintro rfl
      cases h.symm.trans he

theorem Within.trans {fs₁ : FileSystem} (h : fs.Within fs₁) (h' : fs₁.Within fs') :
    fs.Within fs' :=
  ⟨h.cwd.trans h'.cwd, fun l e he => h'.get? l e (h.get? l e he)⟩

/-- A directory that was made is found at its path, and nothing else has changed. -/
theorem openDir_of_makeDir (h : fs.makeDir p = .ok fs') : ∃ l, fs'.openDir p = .ok l ∧
    fs.Within fs' ∧ ∀ l' e, fs'.get? l' = some e → fs.get? l' = some e ∨ l' = l ∧ e = .dir := by
  obtain ⟨n, d, name, hd, hn, hr, rfl⟩ := makeDir_eq_ok h
  obtain ⟨hask, hwalk⟩ := resolve_eq_ok.1 hr
  have hw : fs.Within (fs.insert n d .dir name hd hn) := within_insert (get?_of_walk_vacant hwalk)
  have hmade := walk_made hw (by rw [get?_insert, if_pos rfl]) hwalk
  refine ⟨n :: d, openDir_eq_ok.2 (lookup_eq_ok.2 (resolve_eq_ok.2 ⟨hask, hmade⟩)), hw, ?_⟩
  intro l e he
  rw [get?_insert] at he
  split at he
  next hl => exact .inr ⟨hl, (Option.some.inj he).symm⟩
  · exact .inl he

/-- Where a directory has been made, there is one. -/
theorem isDir_of_makeDir (h : fs.makeDir p = .ok fs') : fs'.isDir p = true := by
  obtain ⟨l, hl, -⟩ := openDir_of_makeDir h
  exact isDir_iff.2 ⟨l, openDir_eq_ok.1 hl⟩

/-- Whether there is no directory to be made on the way to a path. -/
def Ready (fs : FileSystem) (p : Path) : Prop := p.isEmpty = true ∨ fs.isDir p = true

/-- Where all is made nothing changes. -/
theorem makeDirs_of_ready (h : fs.Ready p) : fs.makeDirs p = (.ok (), fs) := by
  rw [makeDirs, makeDirsUpTo]
  obtain h | h := h
  · rw [if_pos h]
  · split
    · rfl
    · rw [makeDir_of_isDir h]

/-- Whether a file system is another with directories added, each at a path or at one above it. -/
structure Grown (fs : FileSystem) (p : Path) (fs' : FileSystem) : Prop where
  within : fs.Within fs'
  added : ∀ l e, fs'.get? l = some e → fs.get? l = some e ∨
    e = .dir ∧ ∃ q, p.Above q ∧ fs'.openDir q = .ok l

theorem Grown.refl (fs : FileSystem) (p : Path) : fs.Grown p fs :=
  ⟨⟨rfl, fun _ _ h => h⟩, fun _ _ h => .inl h⟩

/-- A directory stays where its path leads when others are added. -/
theorem openDir_mono (hw : fs'.Within fs) (h : fs'.openDir p = .ok l) : fs.openDir p = .ok l :=
  openDir_eq_ok.2 (lookup_mono hw (openDir_eq_ok.1 h))

/-- What grew twice has grown. -/
theorem Grown.trans {fs₁ : FileSystem} (h : fs.Grown p fs₁) (h' : fs₁.Grown p fs') :
    fs.Grown p fs' where
  within := h.within.trans h'.within
  added l e he := by
    obtain hold | hnew := h'.added l e he
    · refine (h.added l e hold).imp_right fun ⟨hdir, q, hq, hl⟩ => ⟨hdir, q, hq, ?_⟩
      exact openDir_mono h'.within hl
    · exact .inr hnew

/-- What grew towards the parent grew towards the path. -/
theorem Grown.of_parent {q : Path} (hq : p.parent? = some q) (h : fs.Grown q fs') :
    fs.Grown p fs' where
  within := h.within
  added l e he := (h.added l e he).imp_right fun ⟨hdir, r, hr, hl⟩ => ⟨hdir, r, hr.of_parent hq, hl⟩

/-- To make a directory is to grow towards it. -/
theorem grown_of_makeDir (h : fs.makeDir p = .ok fs') : fs.Grown p fs' := by
  obtain ⟨l, hl, hw, hadds⟩ := openDir_of_makeDir h
  refine ⟨hw, fun l' e he => (hadds l' e he).imp_right ?_⟩
  rintro ⟨rfl, hdir⟩
  exact ⟨hdir, p, .self, hl⟩

/-- To make directories that are missing is to grow towards the last of them, also where that fails
half way. -/
theorem grown_of_makeDirsUpTo {k : Nat} {made : Except Fault Unit}
    (h : makeDirsUpTo k fs p = (made, fs')) : fs.Grown p fs' := by
  induction k generalizing fs' p made with
  | zero =>
    cases h
    exact .refl fs p
  | succ k ih =>
    rw [makeDirsUpTo] at h
    split at h
    · cases h
      exact .refl fs p
    split at h
    next fs₁ hm =>
      cases h
      exact grown_of_makeDir hm
    next =>
      split at h
      · cases h
        exact .refl fs p
      next q hq =>
        split at h
        next why fs₁ hup =>
          cases h
          exact (ih hup).of_parent hq
        next fs₁ hup =>
          have hgrown := (ih hup).of_parent hq
          split at h
          next fs₂ hm =>
            cases h
            exact hgrown.trans (grown_of_makeDir hm)
          next =>
            cases h
            exact hgrown
    next =>
      cases h
      exact .refl fs p

/-- To make directories adds directories, and does nothing else. -/
theorem grown_of_makeDirs {made : Except Fault Unit} (h : fs.makeDirs p = (made, fs')) :
    fs.Grown p fs' := grown_of_makeDirsUpTo h

/-- To make directories takes nothing away and adds nothing but directories. -/
theorem adds_of_makeDirs {made : Except Fault Unit} (h : fs.makeDirs p = (made, fs')) :
    fs.Within fs' ∧ ∀ l e, fs'.get? l = some e → fs.get? l = some e ∨ e = .dir :=
  ⟨(grown_of_makeDirs h).within, fun l e he => ((grown_of_makeDirs h).added l e he).imp_right
    And.left⟩

/-- Once all is made there is nothing more to make. -/
theorem ready_of_makeDirs (h : fs.makeDirs p = (.ok (), fs')) : fs'.Ready p := by
  rw [makeDirs, makeDirsUpTo] at h
  split at h
  next hempty =>
    cases h
    exact .inl hempty
  split at h
  next fs₁ hm =>
    cases h
    exact .inr (isDir_of_makeDir hm)
  next =>
    split at h
    · cases h
    next q hq =>
      split at h
      · cases h
      next fs₁ hup =>
        split at h
        next fs₂ hm =>
          cases h
          exact .inr (isDir_of_makeDir hm)
        next why hm =>
          obtain ⟨hmade, rfl⟩ := Prod.mk.inj h
          split at hmade
          next hdir => exact .inr hdir
          next => cases hmade
  next =>
    obtain ⟨hmade, rfl⟩ := Prod.mk.inj h
    split at hmade
    next hdir => exact .inr hdir
    next => cases hmade

end FileSystem

end Assay
