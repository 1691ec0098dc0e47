import Assay.Proofs.Scratch.Lodging
import Assay.Proofs.Scratch.Naming

/-!
# Scratch — what the operations come to

* A directory is made only where nothing stands, and whether that succeeds or not, nothing that
  stands is touched by it (`isCreation_create`).
* A cleanup that is still to be made is one removal (`cleanup_cases`). Once it has worked nothing is
  left at the path (`not_stands_of_cleanup`). Nothing has changed but what stands there and below
  it, even if a symbolic link stands there (`onlyBelow_cleanup`).
* None of them starts a program.
-/

namespace Assay

open FileSystem (Askable)

/-! ### What never starts a program -/

namespace Machine

/-- A file operation starts no program. -/
theorem started_attempt (op : FileSystem → Except Fault FileSystem) (m : Machine) :
    (m.attempt op).2.started = m.started := by
  unfold attempt
  split <;> rfl

/-- A removal starts no program, refused or not. -/
theorem started_removeTree (p : Path) (m : Machine) : (m.removeTree p).2.started = m.started := by
  unfold removeTree
  split
  · rfl
  · exact started_attempt _ _
  · exact started_attempt _ _

end Machine

namespace Scratch

/-- To create a directory starts no program. -/
theorem started_create (base : Path) (label id : String) (m : Machine) :
    (create base label id m).2.started = m.started := by
  unfold create
  cases h : m.onFiles (·.makeDirs base) with
  | mk made m₁ =>
    have h₁ : m₁.started = m.started := by
      have := congrArg (·.2.started) h
      exact this.symm
    cases made with
    | error why => exact h₁
    | ok _ =>
      simp only
      cases h' : m₁.attempt (·.makeDir (base.child (dirName label id))) with
      | mk made m₂ =>
        have h₂ := Machine.started_attempt (·.makeDir (base.child (dirName label id))) m₁
        rw [h'] at h₂
        cases made with
        | error why => exact h₂.trans h₁
        | ok _ => exact h₂.trans h₁

/-- What is made is a directory right below the base, and it is still to be removed. -/
theorem eq_of_create {base : Path} {label id : String} {m m' : Machine} {s : Scratch}
    (h : create base label id m = (.ok s, m')) : s = ⟨base.child (dirName label id), false⟩ := by
  unfold create at h
  simp only at h
  split at h
  · cases (Prod.mk.inj h).1
  · split at h
    · cases (Prod.mk.inj h).1
    · exact (Except.ok.inj (Prod.mk.inj h).1).symm

/-- What a cleanup does that is still to be made. -/
theorem cleanup_eq {s : Scratch} (h : s.removed = false) (m : Machine) :
    s.cleanup m =
      match m.removeTree s.path with
      | (.ok (), m')     => (.ok (), { s with removed := true }, m')
      | (.error why, m') =>
        if why = .os .notFound then (.ok (), { s with removed := true }, m')
        else (.error (.file why), s, m') := by
  rw [cleanup, h, if_neg Bool.false_ne_true]
  cases m.removeTree s.path with
  | mk outcome m' =>
    cases outcome with
    | ok _ => rfl
    | error why =>
      cases why with
      | os e => cases e <;> rfl
      | nulInPath | nulInArgument | notText | other => rfl

/-- To clean up starts no program. -/
theorem started_cleanup (s : Scratch) (m : Machine) : (s.cleanup m).2.2.started = m.started := by
  unfold cleanup
  split
  · rfl
  · have h := m.started_removeTree s.path
    split
    next heq => rw [heq] at h; exact h
    next heq => rw [heq] at h; exact h
    next heq => rw [heq] at h; exact h

/-- To drop a directory starts no program. -/
theorem started_drop (s : Scratch) (m : Machine) : (s.drop m).started = m.started :=
  started_cleanup s m

end Scratch

/-! ### What stands at a path -/

namespace FileSystem

variable {fs fs' : FileSystem} {p : Path}

/-- Whether something stands at a path, if only a symbolic link. -/
def Stands (fs : FileSystem) (p : Path) : Prop := ∃ l e, fs.lookup false p = .ok (l, e)

/-- Whether nothing has changed but what stands at a path, and below it. -/
structure OnlyBelow (p : Path) (fs fs' : FileSystem) : Prop where
  cwd : fs'.cwd = fs.cwd
  get? : ∀ l, (∀ k e, fs.lookup false p = .ok (k, e) → ¬ k <:+ l) → fs'.get? l = fs.get? l

theorem OnlyBelow.refl (p : Path) (fs : FileSystem) : OnlyBelow p fs fs := ⟨rfl, fun _ _ => rfl⟩

/-- A removal changes nothing but the tree that it removes. -/
theorem onlyBelow_removeTree (h : fs.removeTree p = .ok fs') : OnlyBelow p fs fs' := by
  obtain ⟨n, d, e, hl, rfl⟩ := removeTree_eq_ok h
  refine ⟨rfl, fun l hout => ?_⟩
  rw [get?_erase, if_neg fun hin => hout _ _ hl (List.isSuffixOf_iff_suffix.1 hin)]

/-- After a removal nothing stands at the path. -/
theorem not_stands_of_removeTree (h : fs.removeTree p = .ok fs') : ¬ fs'.Stands p := by
  rintro ⟨l, e, hl⟩
  have hgone := lookup_removeTree h
  rw [hl] at hgone
  cases hgone

/-- A removal finds nothing only where nothing stands. -/
theorem not_stands_of_notFound (h : fs.removeTree p = .error (.os .notFound)) : ¬ fs.Stands p := by
  rintro ⟨l, e, hl⟩
  rw [removeTree, hl] at h
  cases l <;> cases e <;> cases h

end FileSystem

/-! ### Creation -/

namespace Scratch

variable {base : Path} {label id : String} {m m' : Machine} {made : Except Error Scratch}

/-- What an attempt to make a scratch directory at a path must come to. -/
structure IsCreation (path : Path) (fs fs' : FileSystem) (made : Except Error Scratch) : Prop where
  /-- Every entry that is there stays as it is. -/
  within : fs.Within fs'
  /-- It succeeds only where nothing stands, and then there is an empty directory at a place that
  was free. -/
  fresh : ∀ x, made = .ok x → x = ⟨path, false⟩ ∧ ¬ fs.Stands path ∧
    ∃ home, fs'.lookup false path = .ok (home, .dir) ∧ fs.get? home = none ∧
      ∀ l, home <:+ l → l ≠ home → fs'.get? l = none
  /-- Otherwise it says why no scratch directory could be made. -/
  failed : ∀ why, made = .error why → ∃ p cause, why = .scratch p cause

/-- A creation makes what is missing above the directory and then the directory; it stops where one
of the two fails, and says where. -/
theorem create_cases (h : create base label id m = (made, m')) :
    ∃ made' fs₁, m.files.makeDirs base = (made', fs₁) ∧
      ((∃ why, made = .error (.scratch base why) ∧ m' = { m with files := fs₁ }) ∨
        made' = .ok () ∧
          ((∃ why, made = .error (.scratch (base.child (dirName label id)) why) ∧
              m' = { m with files := fs₁ }) ∨
            ∃ fs₂, fs₁.makeDir (base.child (dirName label id)) = .ok fs₂ ∧
              made = .ok ⟨base.child (dirName label id), false⟩ ∧
              m' = { m with files := fs₂ })) := by
  simp only [create, Machine.onFiles, Machine.attempt] at h
  cases hdirs : m.files.makeDirs base with
  | mk made' fs₁ =>
    rw [hdirs] at h
    refine ⟨made', fs₁, rfl, ?_⟩
    cases made' with
    | error why =>
      cases h
      exact .inl ⟨why, rfl, rfl⟩
    | ok _ =>
      refine .inr ⟨rfl, ?_⟩
      cases hdir : fs₁.makeDir (base.child (dirName label id)) with
      | error why =>
        simp only [hdir] at h
        cases h
        exact .inl ⟨why, rfl, rfl⟩
      | ok fs₂ =>
        simp only [hdir] at h
        cases h
        exact .inr ⟨fs₂, rfl, rfl, rfl⟩

/-- A creation is no removal, so it uses up no answer of those to come. -/
theorem refusals_of_create (h : create base label id m = (made, m')) :
    m'.refusals = m.refusals := by
  obtain ⟨_, _, -, ⟨_, -, rfl⟩ | ⟨-, ⟨_, -, rfl⟩ | ⟨_, -, -, rfl⟩⟩⟩ := create_cases h <;> rfl

/-- What has been made is an entry of the directory that the base leads to once it is there. -/
theorem create_eq_ok {x : Scratch} (hid : Path.slash ∉ Text.Utf8.encode id)
    (h : create base label id m = (.ok x, m')) :
    x = ⟨base.child (dirName label id), false⟩ ∧ Askable (base.child (dirName label id)) ∧
      ∃ fs b, m.files.Within fs ∧ fs.Leads base b ∧
        fs.get? (Text.Utf8.encode (dirName label id) :: b) = none ∧
        ∃ hname hd hn,
          m'.files = fs.insert (Text.Utf8.encode (dirName label id)) b .dir hname hd hn := by
  obtain ⟨made, fs, hdirs, ⟨why, he, -⟩ | ⟨rfl, ⟨why, he, -⟩ | ⟨fs', hdir, hx, rfl⟩⟩⟩ :=
    create_cases h
  · cases he
  · cases he
  · obtain ⟨b, hleads⟩ := (FileSystem.ready_of_makeDirs hdirs).leads
    obtain ⟨hnone, hname, hd, hn, rfl⟩ :=
      FileSystem.makeDir_below hleads.reaches (isSegment_dirName hid) hdir
    exact ⟨Except.ok.inj hx, FileSystem.askable_of_makeDir hdir, fs, b,
      (FileSystem.grown_of_makeDirs hdirs).within, hleads, hnone, hname, hd, hn, rfl⟩

/-- Every creation makes a new directory or none. -/
theorem isCreation_create (hid : Path.slash ∉ Text.Utf8.encode id)
    (h : create base label id m = (made, m')) :
    IsCreation (base.child (dirName label id)) m.files m'.files made := by
  have hseg : Path.IsSegment (Text.Utf8.encode (dirName label id)) := isSegment_dirName hid
  cases made with
  | error why =>
    obtain ⟨made', fs, hdirs, ⟨cause, he, rfl⟩ | ⟨rfl, ⟨cause, he, rfl⟩ | ⟨fs', -, hx, -⟩⟩⟩ :=
      create_cases h
    · exact ⟨(FileSystem.grown_of_makeDirs hdirs).within, nofun, fun _ hwhy =>
        ⟨_, _, (Except.error.inj hwhy).symm.trans (Except.error.inj he)⟩⟩
    · exact ⟨(FileSystem.grown_of_makeDirs hdirs).within, nofun, fun _ hwhy =>
        ⟨_, _, (Except.error.inj hwhy).symm.trans (Except.error.inj he)⟩⟩
    · cases hx
  | ok x =>
    obtain ⟨rfl, hask, fs, b, hw, hleads, hnone, hname, hd, hn, hfs⟩ := create_eq_ok hid h
    have hw' : fs.Within m'.files := hfs ▸ FileSystem.within_insert hnone
    refine ⟨hw.trans hw', fun x hx => ?_, nofun⟩
    obtain rfl := Except.ok.inj hx
    refine ⟨rfl, fun ⟨l, e, hl⟩ => ?_, Text.Utf8.encode (dirName label id) :: b, ?_, ?_,
      fun l hin hne => ?_⟩
    · have hl' := FileSystem.lookup_mono hw hl
      obtain rfl := FileSystem.lookup_below hleads.reaches hseg hl'
      exact absurd hnone (Option.ne_none_iff_exists'.2 ⟨e, FileSystem.get?_of_lookup hl'⟩)
    · refine FileSystem.lookup_of_below (hleads.mono hw').reaches hseg hask ?_
      rw [hfs, FileSystem.get?_insert, if_pos rfl]
    · exact hw.get?_eq_none hnone
    · rw [hfs, FileSystem.get?_insert, if_neg hne]
      exact FileSystem.get?_below hnone hin

end Scratch

/-! ### Removal -/

/-- Whether removals are refused for what can be a cause only: where something stands, it is not
said that nothing does. -/
def Machine.Honest (m : Machine) : Prop := some (.os .notFound) ∉ m.refusals

namespace Machine

variable {p : Path} {m m' : Machine} {done : Except Fault Unit}

/-- A removal is done as the files allow, or nothing is done. -/
theorem removeTree_cases (h : m.removeTree p = (done, m')) :
    (∀ r ∈ m'.refusals, r ∈ m.refusals) ∧
      (m.files.removeTree p = .ok m'.files ∧ done = .ok () ∨
        m'.files = m.files ∧ ∃ why, done = .error why ∧
          (some why ∈ m.refusals ∨ m.files.removeTree p = .error why)) := by
  have hattempt : ∀ rs, { m with refusals := rs }.attempt (·.removeTree p) = (done, m') →
      m'.refusals = rs ∧
        (m.files.removeTree p = .ok m'.files ∧ done = .ok () ∨
          m'.files = m.files ∧ ∃ why, done = .error why ∧ m.files.removeTree p = .error why) := by
    intro rs ha
    rw [attempt] at ha
    split at ha
    next hok =>
      cases ha
      exact ⟨rfl, .inl ⟨hok, rfl⟩⟩
    next why herr =>
      cases ha
      exact ⟨rfl, .inr ⟨rfl, why, rfl, herr⟩⟩
  obtain ⟨files, started, refusals⟩ := m
  rw [removeTree] at h
  split at h
  next why rs hr =>
    cases h
    obtain rfl : refusals = _ := hr
    exact ⟨fun _ => List.mem_cons_of_mem _, .inr ⟨rfl, why, rfl, .inl List.mem_cons_self⟩⟩
  next rs hr =>
    obtain rfl : refusals = _ := hr
    obtain ⟨hrs, hcases⟩ := hattempt rs h
    refine ⟨fun r hin => List.mem_cons_of_mem _ (hrs ▸ hin), hcases.imp_right ?_⟩
    exact And.imp_right fun ⟨why, hwhy, herr⟩ => ⟨why, hwhy, .inr herr⟩
  next hr =>
    obtain rfl : refusals = _ := hr
    obtain ⟨hrs, hcases⟩ := hattempt [] h
    refine ⟨fun r hin => hrs ▸ hin, hcases.imp_right ?_⟩
    exact And.imp_right fun ⟨why, hwhy, herr⟩ => ⟨why, hwhy, .inr herr⟩

/-- An attempt uses up no answer of those to come. -/
theorem refusals_attempt (m : Machine) (op : FileSystem → Except Fault FileSystem) :
    (m.attempt op).2.refusals = m.refusals := by
  rw [attempt]
  split <;> rfl

/-- A removal leaves an honest machine honest. -/
theorem Honest.removeTree (hm : m.Honest) (h : m.removeTree p = (done, m')) : m'.Honest :=
  fun hin => hm ((removeTree_cases h).1 _ hin)

/-- A removal that is refused changes nothing at all, and any other only the tree. -/
theorem onlyBelow_removeTree (h : m.removeTree p = (done, m')) :
    FileSystem.OnlyBelow p m.files m'.files := by
  obtain ⟨-, ⟨hok, -⟩ | ⟨hsame, -⟩⟩ := removeTree_cases h
  · exact FileSystem.onlyBelow_removeTree hok
  · rw [hsame]
    exact .refl p m.files

/-- After a removal that has worked, and after one that has found nothing, nothing is there. -/
theorem not_stands_of_removeTree (hm : m.Honest) (h : m.removeTree p = (done, m'))
    (hdone : done = .ok () ∨ done = .error (.os .notFound)) : ¬ m'.files.Stands p := by
  obtain ⟨-, ⟨hok, -⟩ | ⟨hsame, why, rfl, hwhy⟩⟩ := removeTree_cases h
  · exact FileSystem.not_stands_of_removeTree hok
  · obtain hdone | hdone := hdone
    · cases hdone
    · cases hdone
      rw [hsame]
      exact FileSystem.not_stands_of_notFound (hwhy.resolve_left hm)

end Machine

namespace Scratch

variable {x x' : Scratch} {m m' : Machine} {done : Except Error Unit}

/-- A directory that has been removed is not removed again. -/
theorem cleanup_of_removed (h : x.removed = true) (m : Machine) :
    x.cleanup m = (.ok (), x, m) := if_pos h

/-- A cleanup that is still to be made is a removal. It has worked if that has, or if there was
nothing to be removed; otherwise it is still to be made. -/
theorem cleanup_cases (hx : x.removed = false) (h : x.cleanup m = (done, x', m')) :
    ∃ r, m.removeTree x.path = (r, m') ∧
      ((r = .ok () ∨ r = .error (.os .notFound)) ∧ done = .ok () ∧ x' = { x with removed := true } ∨
        (∃ why, done = .error why) ∧ x' = x) := by
  rw [cleanup_eq hx] at h
  cases hr : m.removeTree x.path with
  | mk r m₁ =>
    rw [hr] at h
    cases r with
    | ok _ =>
      cases h
      exact ⟨_, rfl, .inl ⟨.inl rfl, rfl, rfl⟩⟩
    | error why =>
      simp only at h
      split at h
      next hwhy =>
        cases h
        exact ⟨_, rfl, .inl ⟨.inr (congrArg _ hwhy), rfl, rfl⟩⟩
      next =>
        cases h
        exact ⟨_, rfl, .inr ⟨⟨_, rfl⟩, rfl⟩⟩

/-- Whether a cleanup has worked shows in the flag from then on. -/
theorem removed_of_cleanup (h : x.cleanup m = (done, x', m')) :
    x'.removed = true ↔ x.removed = true ∨ done = .ok () := by
  cases hx : x.removed with
  | true =>
    rw [cleanup_of_removed hx] at h
    cases h
    simp only [hx, true_or]
  | false =>
    obtain ⟨-, -, ⟨-, rfl, rfl⟩ | ⟨⟨why, rfl⟩, rfl⟩⟩ := cleanup_cases hx h
    · simp only [or_true]
    · simp only [hx, Bool.false_eq_true, reduceCtorEq, or_false]

/-- After a cleanup that failed the directory still counts as there. -/
theorem removed_eq_false_of_cleanup {why : Error} (h : x.cleanup m = (.error why, x', m')) :
    x'.removed = false := by
  rw [← Bool.not_eq_true, removed_of_cleanup h]
  rintro (hx | hdone)
  · rw [cleanup_of_removed hx] at h
    cases h
  · cases hdone

/-- A cleanup leaves an honest machine honest. -/
theorem honest_of_cleanup (hm : m.Honest) (h : x.cleanup m = (done, x', m')) : m'.Honest := by
  cases hx : x.removed with
  | true =>
    rw [cleanup_of_removed hx] at h
    cases h
    exact hm
  | false =>
    obtain ⟨r, hr, -⟩ := cleanup_cases hx h
    exact hm.removeTree hr

/-- A cleanup changes nothing but the directory and what is in it. -/
theorem onlyBelow_cleanup (h : x.cleanup m = (done, x', m')) :
    FileSystem.OnlyBelow x.path m.files m'.files := by
  cases hx : x.removed with
  | true =>
    rw [cleanup_of_removed hx] at h
    cases h
    exact .refl x.path m.files
  | false =>
    obtain ⟨r, hr, -⟩ := cleanup_cases hx h
    exact Machine.onlyBelow_removeTree hr

/-- After a cleanup that succeeded nothing stands at the path. -/
theorem not_stands_of_cleanup (hm : m.Honest) (hx : x.removed = false)
    (h : x.cleanup m = (.ok (), x', m')) : ¬ m'.files.Stands x.path := by
  obtain ⟨r, hr, ⟨hdone, -, -⟩ | ⟨⟨why, herr⟩, -⟩⟩ := cleanup_cases hx h
  · exact Machine.not_stands_of_removeTree hm hr hdone
  · cases herr

end Scratch

end Assay
