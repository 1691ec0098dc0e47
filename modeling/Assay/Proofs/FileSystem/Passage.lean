import Assay.Proofs.FileSystem.Making
import Assay.Proofs.FileSystem.Tree
import Assay.Proofs.Path.Steps

/-!
# FileSystem — ways through a directory

A way that comes to a directory goes on from there with whatever names come behind (`walk_through`).
So what is made, written or removed under a name in that directory is at that name
(`makeDir_below`, `write_below`, `removeTree_below`), however the path leads to the directory. A
directory can be made there if the name is free and not too long (`makeDir_of_free`,
`makeDir_of_long`).

* `Reaches`: whether every path that goes on behind another leads through a given place.
-/

namespace Assay.FileSystem

variable {fs fs' : FileSystem} {aim : Aim} {b l : Loc} {n m : Bytes} {r t : List Step} {p : Path}

/-! ### Through a directory -/

/-- More steps are to come behind, so this is not the last. -/
theorem not_endsBefore (aim : Aim) (r q : List Step) (n : Bytes) :
    aim.endsBefore (r ++ .enter n :: q) = false := by
  cases r with
  | nil => cases aim <;> simp [Aim.endsBefore]
  | cons s r => cases aim <;> simp [Aim.endsBefore]

theorem ne_slash (r q : List Step) (n : Bytes) : r ++ .enter n :: q ≠ [.slash] := by
  cases r <;> simp

theorem walkWith_through {k : Nat} {onLink : Loc → List Step → Except Errno Target}
    {f : Aim → Loc → List Step → Except Errno Target}
    (hon : ∀ l r, onLink l (r ++ t) = .ok (.occupied b .dir) →
      ∃ j, ∀ aim n q, f aim l (r ++ .enter n :: q) = fs.walk aim j b (.enter n :: q))
    (hself : ∀ aim r, fs.walkWith aim (f aim) b r = fs.walk aim k b r)
    (ht : t = [] ∨ t = [.slash])
    (h : fs.walkWith (.find true) onLink l (r ++ t) = .ok (.occupied b .dir)) :
    ∃ j, ∀ aim n q, fs.walkWith aim (f aim) l (r ++ .enter n :: q) =
      fs.walk aim j b (.enter n :: q) := by
  induction r generalizing l with
  | nil =>
    -- the way is at its end, but for a slash
    have hl : l = b := by
      obtain rfl | rfl := ht
      · simp only [List.nil_append, walkWith] at h
        split at h
        · cases h
          rfl
        · cases h
      · simp only [List.nil_append, walkWith] at h
        split at h
        · split at h
          · cases h
            rfl
          · cases h
        · cases h
    subst hl
    exact ⟨k, fun aim n q => hself aim _⟩
  | cons s r ih =>
    rw [List.cons_append] at h
    cases s with
    | stay | slash | up =>
      simp only [walkWith] at h
      split at h
      next hdir =>
        obtain ⟨j, hj⟩ := ih h
        refine ⟨j, fun aim n q => ?_⟩
        rw [List.cons_append, walkWith, if_pos hdir]
        exact hj aim n q
      next => cases h
    | enter m =>
      obtain ⟨⟨hdir, -, hlen⟩, e, he, honward⟩ := walkWith_enter.1 h
      -- what follows behind the step is the same for every aim, as there is more to come
      have hstep : ∀ aim n q, fs.walkWith aim (f aim) l (.enter m :: (r ++ .enter n :: q)) =
          fs.onward aim (f aim) m l (r ++ .enter n :: q) e := fun aim n q => by
        rw [walkWith, hdir, if_neg (by simp), if_neg (fun hs => ne_slash r q n hs.2), if_neg hlen,
          he]
        cases e <;> rfl
      cases e with
      | link target =>
        rw [onward, if_neg (by simp [Aim.follows]), ← List.append_assoc] at honward
        obtain ⟨j, hj⟩ := hon _ _ honward
        refine ⟨j, fun aim n q => ?_⟩
        rw [List.cons_append, hstep, onward, not_endsBefore, Bool.false_and,
          if_neg Bool.false_ne_true, ← List.append_assoc]
        exact hj aim n q
      | dir =>
        have hrest : fs.walkWith (.find true) onLink (m :: l) (r ++ t) =
            .ok (.occupied b .dir) := by
          simp only [onward] at honward
          split at honward
          next hend =>
            obtain ⟨rfl, rfl⟩ : r = [] ∧ t = [] := by simpa [Aim.endsBefore] using hend
            rw [List.append_nil, walkWith, he]
            exact honward
          next => exact honward
        obtain ⟨j, hj⟩ := ih hrest
        refine ⟨j, fun aim n q => ?_⟩
        simp only [List.cons_append, hstep, onward, not_endsBefore, Bool.false_eq_true, if_false]
        exact hj aim n q
      | file | device =>
        simp only [onward] at honward
        split at honward
        · cases honward
        next hend =>
          obtain ⟨j, hj⟩ := ih honward
          refine ⟨j, fun aim n q => ?_⟩
          simp only [List.cons_append, hstep, onward, not_endsBefore, Bool.false_eq_true, if_false]
          exact hj aim n q

/-- A way to a directory, with a slash behind it or not, goes on from there. -/
theorem walk_through {k : Nat} (ht : t = [] ∨ t = [.slash])
    (h : fs.walk (.find true) k l (r ++ t) = .ok (.occupied b .dir)) :
    ∃ j, ∀ aim n q, fs.walk aim k l (r ++ .enter n :: q) = fs.walk aim j b (.enter n :: q) := by
  induction k generalizing l r with
  | zero =>
    rw [walk] at h
    refine walkWith_through (k := 0) (f := fun _ _ _ => .error .tooManyLinks)
      (fun _ _ hlink => ?_) (fun _ _ => rfl) ht h
    cases hlink
  | succ k ih =>
    rw [walk] at h
    exact walkWith_through (k := k + 1) (f := fun aim => fs.walk aim k)
      (fun _ _ => ih) (fun _ _ => rfl) ht h

/-- Whether paths with more names behind `p` lead through the place `b`, with some number of links
that may still be replaced. -/
def Reaches (fs : FileSystem) (p : Path) (b : Loc) : Prop :=
  ∃ j, ∀ aim n r, fs.walk aim linkLimit (if p.isAbsolute then [] else fs.cwd)
    (p.way ++ .enter n :: r) = fs.walk aim j b (.enter n :: r)

theorem reaches_of_openDir (h : fs.openDir p = .ok b) : fs.Reaches p b := by
  have hwalk := (resolve_eq_ok.1 (lookup_eq_ok.1 (openDir_eq_ok.1 h))).2
  obtain he | he := p.steps_eq
  · rw [he, ← List.append_nil p.way] at hwalk
    exact walk_through (.inl rfl) hwalk
  · rw [he] at hwalk
    exact walk_through (.inr rfl) hwalk

/-- The empty path stands for the working directory. -/
theorem reaches_of_isEmpty (h : p.isEmpty = true) : fs.Reaches p fs.cwd := by
  obtain ⟨bytes⟩ := p
  obtain rfl : bytes = [] := List.isEmpty_iff.1 h
  exact ⟨linkLimit, fun _ _ _ => rfl⟩

/-! ### At a name in it -/

/-- Where an entry is or would be. -/
def Target.place : Target → Loc
  | .occupied l _ => l
  | .vacant n d   => n :: d

/-- A last step that follows no link stays where it leads. -/
theorem place_of_last {k : Nat} {target : Target} (ha : aim.follows = false)
    (h : fs.walk aim k b [.enter n] = .ok target) : target.place = n :: b := by
  have hwith : ∃ onLink, fs.walkWith aim onLink b [.enter n] = .ok target := by
    cases k with
    | zero => exact ⟨_, h⟩
    | succ k => exact ⟨_, h⟩
  obtain ⟨onLink, hwith⟩ := hwith
  simp only [walkWith, Aim.endsBefore, List.isEmpty_nil, Bool.true_or, Bool.true_and, ha,
    Bool.not_false, if_true] at hwith
  split at hwith
  · cases hwith
  split at hwith
  · cases hwith
  split at hwith
  · cases hwith
  split at hwith <;> cases hwith <;> rfl

/-- The last of two steps stays where it leads if neither comes to a link. -/
theorem place_of_two {k : Nat} {target : Target}
    (hn : ∀ t, fs.get? (n :: b) ≠ some (.link t)) (hm : ∀ t, fs.get? (m :: n :: b) ≠ some (.link t))
    (h : fs.walk aim k b [.enter n, .enter m] = .ok target) : target.place = m :: n :: b := by
  have hwith : ∃ onLink, fs.walkWith aim onLink b [.enter n, .enter m] = .ok target := by
    cases k with
    | zero => exact ⟨_, h⟩
    | succ k => exact ⟨_, h⟩
  obtain ⟨onLink, hwith⟩ := hwith
  have hfirst : aim.endsBefore [.enter m] = false := not_endsBefore aim [] [] m
  have hlast : aim.endsBefore [] = true := rfl
  simp only [walkWith, hfirst, hlast, if_true, Bool.false_eq_true, if_false] at hwith
  split at hwith
  · cases hwith
  split at hwith
  · cases hwith
  split at hwith
  · cases hwith
  split at hwith
  · cases hwith
  · exact absurd ‹_› (hn _)
  split at hwith
  · cases hwith
  split at hwith
  · cases hwith
  split at hwith
  · cases hwith
  split at hwith
  · cases hwith
    rfl
  · exact absurd ‹_› (hm _)
  · cases hwith
    rfl

open Assay.Path (IsSegment)

theorem resolve_below {target : Target} (hp : fs.Reaches p b) (hn : IsSegment n)
    (h : fs.resolve aim (p.join ⟨n⟩) = .ok target) :
    ∃ j, fs.walk aim j b [.enter n] = .ok target := by
  obtain ⟨j, hj⟩ := hp
  have hwalk := (resolve_eq_ok.1 h).2
  rw [Path.steps_join p hn, Path.isAbsolute_join p hn, hj] at hwalk
  exact ⟨j, hwalk⟩

theorem resolve_two_below {target : Target} (hp : fs.Reaches p b) (hn : IsSegment n)
    (hm : IsSegment m) (h : fs.resolve aim ((p.join ⟨n⟩).join ⟨m⟩) = .ok target) :
    ∃ j, fs.walk aim j b [.enter n, .enter m] = .ok target := by
  obtain ⟨j, hj⟩ := hp
  have hwalk := (resolve_eq_ok.1 h).2
  rw [Path.steps_join _ hm, Path.way_join p hn, Path.isAbsolute_join _ hm,
    Path.isAbsolute_join p hn, List.append_assoc, List.singleton_append, hj] at hwalk
  exact ⟨j, hwalk⟩

/-- What writing changes, if anything: a file at the place where the path leads. -/
theorem write_eq_ok {f : File} (h : fs.write p f = .ok fs') :
    ∃ target, fs.resolve .write p = .ok target ∧ (fs' = fs ∨
      ∃ n d x name hd hn, target.place = n :: d ∧
        fs' = fs.insert n d (.file ⟨f.content, x⟩) name hd hn) := by
  rw [write] at h
  cases hr : fs.resolve .write p with
  | error why => rw [hr] at h; cases h
  | ok target =>
    rw [hr] at h
    refine ⟨target, rfl, ?_⟩
    cases target with
    | vacant n d =>
      obtain ⟨name, hd, hn, rfl⟩ := put_eq_ok (h : fs.put n d (.file f) = .ok fs')
      exact .inr ⟨n, d, f.executable, name, hd, hn, rfl, rfl⟩
    | occupied l e =>
      cases e with
      | device v =>
        refine .inl ?_
        simp only [bind, Except.bind] at h
        split at h
        · cases h
        · exact (Except.ok.inj h).symm
      | dir | link => cases l <;> cases h
      | file g =>
        cases l with
        | nil => cases h
        | cons n d =>
          obtain ⟨name, hd, hn, rfl⟩ :=
            put_eq_ok (h : fs.put n d (.file ⟨f.content, f.executable || g.executable⟩) = .ok fs')
          exact .inr ⟨n, d, _, name, hd, hn, rfl, rfl⟩

/-- A name without a NUL keeps one out of the path that it ends. -/
theorem contains_join (hp : p.bytes.contains 0 = false) (hn : IsSegment n) (h0 : 0 ∉ n) :
    (p.join ⟨n⟩).bytes.contains 0 = false := by
  obtain ⟨front, hfront, hjoin⟩ := Path.exists_bytes_join p
  have hp0 : 0 ∉ p.bytes := by simpa using hp
  have hfront0 : 0 ∉ front := by
    obtain rfl | rfl := hfront
    · exact hp0
    · rw [List.mem_append, not_or]
      exact ⟨hp0, by decide⟩
  rw [hjoin _ (Path.isAbsolute_name hn), Bool.eq_false_iff, Ne, List.contains_iff_mem,
    List.mem_append, not_or]
  exact ⟨hfront0, h0⟩

/-- The path of an entry may be asked for if it is not too long. -/
theorem askable_join (hp : p.bytes.contains 0 = false) (hn : IsSegment n) (h0 : 0 ∉ n)
    (hlen : p.bytes.length + 1 + n.length ≤ pathLimit) : Askable (p.join ⟨n⟩) := by
  obtain ⟨front, hfront, hjoin⟩ := Path.exists_bytes_join p
  have hbytes := hjoin ⟨n⟩ (Path.isAbsolute_name hn)
  refine ⟨contains_join hp hn h0, ?_, ?_⟩
  · rw [Path.isEmpty, hbytes, List.isEmpty_eq_false_iff]
    exact List.append_ne_nil_of_right_ne_nil _ hn.1
  · rw [hbytes, List.length_append]
    obtain rfl | rfl := hfront
    · exact Nat.le_trans (Nat.add_le_add_right (Nat.le_succ _) _) hlen
    · rw [List.length_append, List.length_singleton]
      exact hlen

/-- A free name in a directory is where a path leads that ends in it. -/
theorem resolve_of_free (hp : fs.Reaches p b) (hb : fs.isDirAt b = true) (hn : IsSegment n)
    (hlen : n.length ≤ nameLimit) (ha : Askable (p.join ⟨n⟩)) (h : fs.get? (n :: b) = none) :
    fs.resolve aim (p.join ⟨n⟩) = .ok (.vacant n b) := by
  obtain ⟨j, hj⟩ := hp
  have hend : aim.endsBefore [] = true := rfl
  have hwalk : fs.walk aim j b [.enter n] = .ok (.vacant n b) := by
    cases j <;> simp [walk, walkWith, hb, Nat.not_lt.2 hlen, h, hend]
  refine resolve_eq_ok.2 ⟨ha, ?_⟩
  rw [Path.steps_join p hn, Path.isAbsolute_join p hn, hj]
  exact hwalk

/-- A directory can be made under a free name. -/
theorem makeDir_of_free (hp : fs.Reaches p b) (hb : fs.isDirAt b = true) (hn : IsName n)
    (ha : Askable (p.join ⟨n⟩)) (h : fs.get? (n :: b) = none) :
    ∃ fs', fs.makeDir (p.join ⟨n⟩) = .ok fs' := by
  have hresolve : fs.resolve .makeDir (p.join ⟨n⟩) = .ok (.vacant n b) :=
    resolve_of_free hp hb (Path.isSegment_of_isName hn) hn.2.2.2.2.2 ha h
  have hnot : fs.get? (n :: b) ≠ some .dir := by
    rw [h]
    exact nofun
  refine ⟨fs.insert n b .dir hn (isDirAt_iff.1 hb) hnot, ?_⟩
  rw [makeDir, hresolve]
  exact (dif_pos hn).trans ((dif_pos (isDirAt_iff.1 hb)).trans (dif_neg hnot))

/-- None can be made under a name that is too long, whether the path is too long as well or not. -/
theorem makeDir_of_long (hp : fs.Reaches p b) (hb : fs.isDirAt b = true) (hn : IsSegment n)
    (hnul : (p.join ⟨n⟩).bytes.contains 0 = false) (h : nameLimit < n.length) :
    fs.makeDir (p.join ⟨n⟩) = .error (.os .nameTooLong) := by
  obtain ⟨j, hj⟩ := hp
  have hwalk : fs.walk .makeDir j b [.enter n] = .error .nameTooLong := by
    cases j <;> simp [walk, walkWith, hb, h]
  have hlen : 0 < (p.join ⟨n⟩).bytes.length :=
    Nat.lt_of_lt_of_le (List.length_pos_of_ne_nil hn.1) (Path.length_le_join p hn)
  have hempty : (p.join ⟨n⟩).isEmpty = false :=
    Bool.eq_false_iff.2 fun he => List.ne_nil_of_length_pos hlen (List.isEmpty_iff.1 he)
  have hresolve : fs.resolve .makeDir (p.join ⟨n⟩) = .error (.os .nameTooLong) := by
    rw [resolve, hnul, hempty]
    simp only [Bool.false_eq_true, if_false]
    split
    · rfl
    · rw [Path.steps_join p hn, Path.isAbsolute_join p hn, hj, hwalk]
  rw [makeDir, hresolve]
  rfl

theorem makeDir_below (hp : fs.Reaches p b) (hn : IsSegment n)
    (h : fs.makeDir (p.join ⟨n⟩) = .ok fs') :
    fs.get? (n :: b) = none ∧ ∃ name hd hn', fs' = fs.insert n b .dir name hd hn' := by
  obtain ⟨m, d, name, hd, hm, hr, rfl⟩ := makeDir_eq_ok h
  obtain ⟨j, hwalk⟩ := resolve_below hp hn hr
  have hvacant := get?_of_walk_vacant hwalk
  cases place_of_last rfl hwalk
  exact ⟨hvacant, name, hd, hm, rfl⟩

theorem askable_of_makeDir (h : fs.makeDir p = .ok fs') : Askable p := by
  obtain ⟨n, d, name, hd, hn, hr, rfl⟩ := makeDir_eq_ok h
  exact (resolve_eq_ok.1 hr).1

/-- A directory in another is found as long as its path may be asked for. -/
theorem lookup_of_below (hp : fs.Reaches p b) (hn : IsSegment n) (ha : Askable (p.join ⟨n⟩))
    (hdir : fs.get? (n :: b) = some .dir) : fs.lookup false (p.join ⟨n⟩) = .ok (n :: b, .dir) := by
  have hsome : (fs.get? (n :: b)).isSome := by rw [hdir]; rfl
  have hb : fs.isDirAt b = true := isDirAt_iff.2 (fs.get?_dir_of_isSome hsome)
  obtain ⟨-, -, -, -, -, hlen⟩ := fs.isName_of_isSome hsome
  obtain ⟨j, hj⟩ := hp
  have hwalk : fs.walk (.find false) j b [.enter n] = .ok (.occupied (n :: b) .dir) := by
    cases j with
    | zero =>
      rw [walk]
      exact walkWith_enter.2 ⟨⟨hb, by simp, Nat.not_lt.2 hlen⟩, .dir, hdir, rfl⟩
    | succ j =>
      rw [walk]
      exact walkWith_enter.2 ⟨⟨hb, by simp, Nat.not_lt.2 hlen⟩, .dir, hdir, rfl⟩
  refine lookup_eq_ok.2 (resolve_eq_ok.2 ⟨ha, ?_⟩)
  rw [Path.steps_join p hn, Path.isAbsolute_join p hn, hj]
  exact hwalk

/-- What is found at a name in a directory stands there. -/
theorem lookup_below {e : Entry} (hp : fs.Reaches p b) (hn : IsSegment n)
    (h : fs.lookup false (p.join ⟨n⟩) = .ok (l, e)) : l = n :: b := by
  obtain ⟨j, hwalk⟩ := resolve_below hp hn (lookup_eq_ok.1 h)
  exact place_of_last rfl hwalk

theorem removeTree_of_below (hp : fs.Reaches p b) (hn : IsSegment n) (ha : Askable (p.join ⟨n⟩))
    (hdir : fs.get? (n :: b) = some .dir) : fs.removeTree (p.join ⟨n⟩) = .ok (fs.erase n b) := by
  rw [removeTree, lookup_of_below hp hn ha hdir]
  rfl

theorem removeTree_below (hp : fs.Reaches p b) (hn : IsSegment n)
    (h : fs.removeTree (p.join ⟨n⟩) = .ok fs') : fs' = fs.erase n b := by
  obtain ⟨m, d, e, hl, rfl⟩ := removeTree_eq_ok h
  cases lookup_below hp hn hl
  rfl

theorem write_below (hp : fs.Reaches p b) (hn : IsSegment n) (hm : IsSegment m) {f : File}
    (hln : ∀ t, fs.get? (n :: b) ≠ some (.link t))
    (hlm : ∀ t, fs.get? (m :: n :: b) ≠ some (.link t))
    (h : fs.write ((p.join ⟨n⟩).join ⟨m⟩) f = .ok fs') :
    fs' = fs ∨ ∃ x name hd hn', fs' = fs.insert m (n :: b) (.file ⟨f.content, x⟩) name hd hn' := by
  obtain ⟨target, hr, rfl | ⟨n', d, x, name, hd, hn', hplace, rfl⟩⟩ := write_eq_ok h
  · exact .inl rfl
  · obtain ⟨j, hwalk⟩ := resolve_two_below hp hn hm hr
    cases hplace.symm.trans (place_of_two hln hlm hwalk)
    exact .inr ⟨x, name, hd, hn', rfl⟩

end Assay.FileSystem
