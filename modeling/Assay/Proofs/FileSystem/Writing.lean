import Assay.Proofs.FileSystem.Passage

/-!
# FileSystem — reading what was written

`read_of_write`: the bytes that were written to a path are read at that path, through whatever
symbolic links it goes. Only a device keeps nothing of what is written to it.
-/

namespace Assay.FileSystem

variable {fs fs' : FileSystem} {n : Bytes} {d l : Loc} {r : List Step} {p : Path} {f : File}
  {onLink onLink' : Loc → List Step → Except Errno Target} {target : Target}

/-- Whether two file systems differ at most in a file: it stands in the second, and no directory or
link stands in its place in the first. -/
structure Filed (fs fs' : FileSystem) (k : Loc) (f : File) : Prop where
  cwd : fs'.cwd = fs.cwd
  elsewhere : ∀ l, l ≠ k → fs'.get? l = fs.get? l
  there : fs'.get? k = some (.file f)
  before : ∀ e, fs.get? k = some e → ∃ g, e = .file g

/-- To write a file removes no directory. -/
theorem Filed.isDirAt {k : Loc} (h : Filed fs fs' k f) (hl : fs.isDirAt l = true) :
    fs'.isDirAt l = true := by
  rw [isDirAt_iff] at hl ⊢
  rw [h.elsewhere l]
  · exact hl
  · rintro rfl
    obtain ⟨g, hg⟩ := h.before _ hl
    cases hg

/-- A way for writing leads, once the file is written, to the file. -/
theorem walkWith_filed {k : Loc} (hf : Filed fs fs' k f)
    (hon : ∀ l r target, onLink l r = .ok target → target.place = k →
      onLink' l r = .ok (.occupied k (.file f)))
    (h : fs.walkWith .write onLink l r = .ok target) (hk : target.place = k) :
    fs'.walkWith (.find true) onLink' l r = .ok (.occupied k (.file f)) := by
  induction r generalizing l with
  | nil =>
    simp only [walkWith] at h ⊢
    split at h
    next e he =>
      cases h
      obtain rfl : l = k := hk
      rw [hf.there]
    next => cases h
  | cons s r ih =>
    cases s with
    | stay | slash | up =>
      simp only [walkWith] at h ⊢
      split at h
      next hd =>
        rw [if_pos (hf.isDirAt hd)]
        exact ih h
      next => cases h
    | enter m =>
      simp only [walkWith] at h
      split at h
      · cases h
      next hd =>
        have hd' : fs'.isDirAt l = true := hf.isDirAt (by simpa using hd)
        split at h
        · cases h
        split at h
        · cases h
        next hlen =>
          have henter : ∀ e, fs'.get? (m :: l) = some e →
              fs'.onward (.find true) onLink' m l r e = .ok (.occupied k (.file f)) →
              fs'.walkWith (.find true) onLink' l (.enter m :: r) = .ok (.occupied k (.file f)) :=
            fun e he h' => walkWith_enter.2 ⟨⟨hd', by simp, hlen⟩, e, he, h'⟩
          -- the end of the way is the place of the file, whether something stood there or not
          have hend : m :: l = k → Aim.write.endsBefore r = true →
              fs'.walkWith (.find true) onLink' l (.enter m :: r) =
                .ok (.occupied k (.file f)) := by
            rintro rfl hr
            exact henter _ hf.there (if_pos (by simpa [Aim.endsBefore] using hr))
          split at h
          next =>
            split at h
            next hr =>
              cases h
              exact hend hk hr
            next => cases h
          next t ht =>
            rw [Aim.follows, Bool.not_true, Bool.and_false, if_neg Bool.false_ne_true] at h
            have hne : m :: l ≠ k := by
              rintro rfl
              obtain ⟨g, hg⟩ := hf.before _ ht
              cases hg
            refine henter _ ((hf.elsewhere _ hne).trans ht) ?_
            simp only [onward, Aim.follows, Bool.not_true, Bool.and_false, Bool.false_eq_true,
              if_false]
            exact hon _ _ _ h hk
          next e hlink he =>
            split at h
            next hr =>
              cases h
              exact hend hk hr
            next hr =>
              have hr' : ¬ (Aim.find true).endsBefore r = true := by
                simpa [Aim.endsBefore] using hr
              obtain ⟨e', he', hlink'⟩ : ∃ e', fs'.get? (m :: l) = some e' ∧ ∀ t, e' ≠ .link t := by
                by_cases hm : m :: l = k
                · refine ⟨.file f, hm ▸ hf.there, fun _ hlink => ?_⟩
                  cases hlink
                · exact ⟨e, (hf.elsewhere _ hm).trans he, hlink⟩
              refine henter e' he' ?_
              cases e' with
              | link t => exact absurd rfl (hlink' t)
              | dir | file | device =>
                simp only [onward]
                rw [if_neg hr']
                exact ih h

/-- The way on which a file was written leads to it. -/
theorem walk_filed {k : Loc} (hf : Filed fs fs' k f) {j : Nat}
    (h : fs.walk .write j l r = .ok target) (hk : target.place = k) :
    fs'.walk (.find true) j l r = .ok (.occupied k (.file f)) := by
  induction j generalizing l r target with
  | zero =>
    rw [walk] at h ⊢
    refine walkWith_filed hf (fun _ _ _ hlink => ?_) h hk
    cases hlink
  | succ j ih =>
    rw [walk] at h ⊢
    exact walkWith_filed hf (fun _ _ _ => ih) h hk

/-- A file that is put where none or another was is filed there. -/
theorem filed_insert {name hd hn} (h : ∀ e, fs.get? (n :: d) = some e → ∃ g, e = .file g) :
    Filed fs (fs.insert n d (.file f) name hd hn) (n :: d) f where
  cwd := rfl
  elsewhere l hl := by rw [get?_insert, if_neg hl]
  there := by rw [get?_insert, if_pos rfl]
  before := h

/-- Writing puts a file where the path leads, or the path leads to a device. -/
theorem filed_of_write (h : fs.write p f = .ok fs') :
    ∃ target, fs.resolve .write p = .ok target ∧
      ((∃ l v, target = .occupied l (.device v)) ∨
        ∃ x, Filed fs fs' target.place ⟨f.content, x⟩) := by
  rw [write] at h
  cases hr : fs.resolve .write p with
  | error why => rw [hr] at h; cases h
  | ok target =>
    rw [hr] at h
    refine ⟨target, rfl, ?_⟩
    have hwalk := (resolve_eq_ok.1 hr).2
    cases target with
    | vacant n d =>
      obtain ⟨name, hd, hn, rfl⟩ := put_eq_ok (h : fs.put n d (.file f) = .ok fs')
      refine .inr ⟨f.executable, filed_insert fun e he => ?_⟩
      cases he.symm.trans (get?_of_walk_vacant hwalk)
    | occupied l e =>
      cases e with
      | device v => exact .inl ⟨l, v, rfl⟩
      | dir | link => cases l <;> cases h
      | file g =>
        cases l with
        | nil => cases h
        | cons n d =>
          obtain ⟨name, hd, hn, rfl⟩ :=
            put_eq_ok (h : fs.put n d (.file ⟨f.content, f.executable || g.executable⟩) = .ok fs')
          refine .inr ⟨f.executable || g.executable, filed_insert fun e he => ⟨g, ?_⟩⟩
          exact Option.some.inj (he.symm.trans (get?_of_walk hwalk))

/-- What was written to a path that leads to no device is read there. -/
theorem read_of_write {bs : Bytes} {x : Bool}
    (hdevice : ∀ l v, fs.resolve .write p ≠ .ok (.occupied l (.device v)))
    (h : fs.write p ⟨bs, x⟩ = .ok fs') : fs'.read p = .ok bs := by
  obtain ⟨target, hr, ⟨l, v, rfl⟩ | ⟨y, hf⟩⟩ := filed_of_write h
  · exact absurd hr (hdevice l v)
  · obtain ⟨hask, hwalk⟩ := resolve_eq_ok.1 hr
    have hl : fs'.lookup true p = .ok (target.place, .file ⟨bs, y⟩) := by
      refine lookup_eq_ok.2 (resolve_eq_ok.2 ⟨hask, ?_⟩)
      rw [hf.cwd]
      exact walk_filed hf hwalk rfl
    rw [read, openFile, hl]
    rfl

end Assay.FileSystem
