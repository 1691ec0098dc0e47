import Assay.Discovery
import Assay.Proofs.FileSystem.Tree
import Assay.Proofs.Path.Join
import Assay.Proofs.Text.Utf8

/-!
# Discovery — what a walk finds

`places fs d k r` are the fixtures that a walk over `k` levels comes to from the place `r` below a
directory `d`, in the order of the walk: each real directory there whose name starts with three
digits (`mem_places`), once (`nodup_places`). The walk itself finds these, or stops at a directory
whose path is too long to be listed (`walk_cases`).
-/

namespace Assay

/-- Whether a name starts with three digits shows in its bytes. -/
theorem isFixtureName_iff (n : Bytes) :
    isFixtureName (Text.Utf8.decodeLossy n) = true ↔
      ∃ a b c rest, n = a :: b :: c :: rest ∧
        Text.Utf8.IsDigit a ∧ Text.Utf8.IsDigit b ∧ Text.Utf8.IsDigit c := by
  rw [isFixtureName, Text.Utf8.toList_decodeLossy]
  constructor
  · intro h
    split at h
    next x y z l hl =>
      simp only [Bool.and_eq_true] at h
      obtain ⟨⟨hx, hy⟩, hz⟩ := h
      obtain ⟨a, n₁, rfl, ha, h₁⟩ := Text.Utf8.shown_digit_iff.1 ⟨x, hl, hx⟩
      obtain ⟨b, n₂, rfl, hb, h₂⟩ := Text.Utf8.shown_digit_iff.1 ⟨y, h₁, hy⟩
      obtain ⟨c, n₃, rfl, hc, -⟩ := Text.Utf8.shown_digit_iff.1 ⟨z, h₂, hz⟩
      exact ⟨a, b, c, n₃, rfl, ha, hb, hc⟩
    next => cases h
  · rintro ⟨a, b, c, rest, rfl, ha, hb, hc⟩
    obtain ⟨z, hz, hz'⟩ := Text.Utf8.shown_digit_iff.2 ⟨c, rest, rfl, hc, rfl⟩
    obtain ⟨y, hy, hy'⟩ := Text.Utf8.shown_digit_iff.2 ⟨b, _, rfl, hb, hz⟩
    obtain ⟨x, hx, hx'⟩ := Text.Utf8.shown_digit_iff.2 ⟨a, _, rfl, ha, hy⟩
    rw [hx]
    simp only [hx', hy', hz', Bool.and_self]

namespace Discovery

open FileSystem (pathLimit)
open Assay.Path (below)

/-! ### The places of fixtures -/

/-- Whether a place below a directory is a real directory whose name starts with three digits. -/
def IsFixtureAt (fs : FileSystem) (d : Loc) (l : Loc) : Prop :=
  fs.isDirAt (l ++ d) = true ∧
    ∃ n r, l = n :: r ∧ ∃ a b c rest, n = a :: b :: c :: rest ∧
      Text.Utf8.IsDigit a ∧ Text.Utf8.IsDigit b ∧ Text.Utf8.IsDigit c

/-- The directories in a directory, in the order of their names. -/
def folders (fs : FileSystem) (d : Loc) : List Bytes :=
  ((fs.names d).mergeSort fun a b => decide (a ≤ b)).filter fun n => fs.isDirAt (n :: d)

/-- The places of the fixtures below the place `r`, as far as `k` levels down. -/
def places (fs : FileSystem) (d : Loc) : Nat → Loc → List Loc
  | 0, _     => []
  | k + 1, r =>
    (folders fs (r ++ d)).flatMap fun n =>
      (if isFixtureName (Text.Utf8.decodeLossy n) then [n :: r] else []) ++ places fs d k (n :: r)

/-- What is found at a place. -/
def foundAt (root : Path) (l : Loc) : Found :=
  ⟨parentKey root (below root l.tail), ⟨below root l⟩⟩

variable {fs : FileSystem} {d : Loc} {k : Nat} {r l : Loc}

/-- What is listed are the real directories. -/
theorem mem_folders {n : Bytes} : n ∈ folders fs d ↔ fs.isDirAt (n :: d) = true := by
  rw [folders, List.mem_filter, List.mem_mergeSort, FileSystem.mem_names]
  exact and_iff_right_of_imp FileSystem.isSome_of_isDirAt

/-- Each directory is listed once. -/
theorem nodup_folders (fs : FileSystem) (d : Loc) : (folders fs d).Nodup :=
  ((List.mergeSort_perm _ _).nodup_iff.2 (FileSystem.nodup_names fs d)).filter _

/-- What is found one level down, or further down than that. -/
theorem mem_places_succ :
    l ∈ places fs d (k + 1) r ↔ ∃ n, fs.isDirAt (n :: r ++ d) = true ∧
      (isFixtureName (Text.Utf8.decodeLossy n) = true ∧ l = n :: r ∨
        l ∈ places fs d k (n :: r)) := by
  rw [places, List.mem_flatMap]
  refine exists_congr fun n => ?_
  rw [mem_folders, List.mem_append]
  refine and_congr_right fun _ => or_congr_left ?_
  split
  next h => rw [List.mem_singleton, and_iff_right h]
  next h => exact iff_of_false List.not_mem_nil fun hc => h hc.1

/-- A walk over enough levels comes to every fixture and to nothing else. -/
theorem mem_places : l ∈ places fs d k r ↔
    ∃ q, q ≠ [] ∧ q.length ≤ k ∧ l = q ++ r ∧ IsFixtureAt fs d l := by
  induction k generalizing r with
  | zero =>
    refine iff_of_false List.not_mem_nil fun ⟨q, hq, hlen, _⟩ => hq ?_
    exact List.eq_nil_of_length_eq_zero (Nat.le_zero.1 hlen)
  | succ k ih =>
    rw [mem_places_succ]
    constructor
    · rintro ⟨n, hdir, ⟨hname, rfl⟩ | hl⟩
      · exact ⟨[n], List.cons_ne_nil _ _, Nat.succ_pos _, rfl, hdir, n, r, rfl,
          (isFixtureName_iff n).1 hname⟩
      · obtain ⟨q, hq, hlen, rfl, hf⟩ := ih.1 hl
        refine ⟨q ++ [n], by simp, ?_, by simp, hf⟩
        rw [List.length_append]
        exact Nat.succ_le_succ hlen
    · rintro ⟨q, hq, hlen, hl, hf⟩
      -- the first step of the walk is the last name of the place
      obtain ⟨q', n, rfl⟩ : ∃ q' n, q = q' ++ [n] := ⟨_, _, (List.dropLast_concat_getLast hq).symm⟩
      rw [List.append_assoc, List.singleton_append] at hl
      rw [List.length_append, List.length_singleton] at hlen
      obtain ⟨hdir, m, t, hmt, hname⟩ := hf
      cases q' with
      | nil =>
        obtain ⟨rfl, rfl⟩ := List.cons.inj (hl.symm.trans hmt)
        rw [hl] at hdir
        exact ⟨n, hdir, .inl ⟨(isFixtureName_iff n).2 hname, hl⟩⟩
      | cons x q' =>
        have hup : fs.isDirAt (n :: r ++ d) = true := by
          rw [hl, List.append_assoc] at hdir
          exact FileSystem.isDirAt_of_append hdir
        exact ⟨n, hup, .inr (ih.2 ⟨x :: q', List.cons_ne_nil _ _, Nat.le_of_succ_le_succ hlen, hl,
          hdir, m, t, hmt, hname⟩)⟩

/-- What is found below a place lies further down. -/
theorem further_of_mem_places (h : l ∈ places fs d k r) : ∃ q, q ≠ [] ∧ l = q ++ r := by
  obtain ⟨q, hq, -, rfl, -⟩ := mem_places.1 h
  exact ⟨q, hq, rfl⟩

/-- What is found at a place or below it ends with the way there. -/
theorem ends_of_mem {n : Bytes} {b : Bool}
    (h : l ∈ (if b then [n :: r] else []) ++ places fs d k (n :: r)) : ∃ q, l = q ++ n :: r := by
  obtain h | h := List.mem_append.1 h
  · split at h
    · exact ⟨[], List.mem_singleton.1 h⟩
    · cases h
  · obtain ⟨q, -, rfl⟩ := further_of_mem_places h
    exact ⟨q, rfl⟩

/-- A walk comes to each place once. -/
theorem nodup_places (fs : FileSystem) (d : Loc) (k : Nat) (r : Loc) : (places fs d k r).Nodup := by
  induction k generalizing r with
  | zero => exact List.nodup_nil
  | succ k ih =>
    rw [places, List.nodup_flatMap]
    refine ⟨fun n _ => List.nodup_append.2 ⟨?_, ih (n :: r), fun a ha b hb hab => ?_⟩, ?_⟩
    · split
      · exact List.nodup_singleton _
      · exact List.nodup_nil
    · subst hab
      split at ha
      · obtain ⟨q, hq, hl⟩ := further_of_mem_places hb
        rw [List.mem_singleton.1 ha] at hl
        exact hq (List.append_left_eq_self.1 hl.symm)
      · cases ha
    · refine (nodup_folders fs (r ++ d)).imp fun {n n'} hne => ?_
      refine List.disjoint_left.2 fun l hl hl' => ?_
      -- both ways end as long as each other, so with the same name
      obtain ⟨q, rfl⟩ := ends_of_mem hl
      obtain ⟨q', hq'⟩ := ends_of_mem hl'
      exact hne (List.cons.inj (List.append_inj_right' hq' rfl)).1

/-! ### The walk -/

/-- Steps that each succeed or stop all: either all succeed, or the first that does not stops. -/
theorem mapM_cases {α β ε : Type} {f : α → Except ε β} {g : α → β} {P : α → Prop} {E : ε → Prop}
    {as : List α} (h : ∀ a ∈ as, f a = .ok (g a) ∧ P a ∨ ∃ e, f a = .error e ∧ E e) :
    as.mapM f = .ok (as.map g) ∧ (∀ a ∈ as, P a) ∨ ∃ e, as.mapM f = .error e ∧ E e := by
  induction as with
  | nil => exact .inl ⟨rfl, fun a ha => nomatch ha⟩
  | cons a as ih =>
    obtain ⟨ha, has⟩ := List.forall_mem_cons.1 h
    rw [List.mapM_cons]
    obtain ⟨ha, hP⟩ | ⟨e, ha, hE⟩ := ha
    · rw [ha]
      obtain ⟨hrest, hall⟩ | ⟨e, hrest, hE⟩ := ih has
      · rw [hrest]
        exact .inl ⟨rfl, List.forall_mem_cons.2 ⟨hP, hall⟩⟩
      · rw [hrest]
        exact .inr ⟨e, rfl, hE⟩
    · rw [ha]
      exact .inr ⟨e, rfl, hE⟩

/-- Whether the path of a place is too long for its directory to be listed. -/
def IsTooLong (root : Path) (l : Loc) : Prop := pathLimit < (below root l).bytes.length

/-- What a walk does with one directory in a directory. -/
def visit (fs : FileSystem) (root : Path) (k : Nat) (p : Path) (d : Loc) (n : Bytes) :
    Except Error (List Found) := do
  let here :=
    if isFixtureName (Text.Utf8.decodeLossy n) then [⟨parentKey root p, ⟨p.join ⟨n⟩⟩⟩] else []
  pure (here ++ (← walk fs root k (p.join ⟨n⟩) (n :: d)))

/-- A walk visits each directory in a directory whose path can be listed. -/
theorem walk_succ (fs : FileSystem) (root : Path) (k : Nat) {p : Path}
    (h : ¬ pathLimit < p.bytes.length) (d : Loc) :
    walk fs root (k + 1) p d = List.flatten <$> (folders fs d).mapM (visit fs root k p d) := by
  rw [walk, if_neg h]
  rfl

/-- A visit finds the directory itself, if it is a fixture, and what is below it. -/
theorem visit_of_ok {root p : Path} {n : Bytes} {found : List Found}
    (h : walk fs root k (p.join ⟨n⟩) (n :: d) = .ok found) :
    visit fs root k p d n = .ok ((if isFixtureName (Text.Utf8.decodeLossy n) then
      [⟨parentKey root p, ⟨p.join ⟨n⟩⟩⟩] else []) ++ found) := by
  rw [visit, h]
  rfl

/-- A visit stops where the walk below it stops. -/
theorem visit_of_error {root p : Path} {n : Bytes} {e : Error}
    (h : walk fs root k (p.join ⟨n⟩) (n :: d) = .error e) : visit fs root k p d n = .error e := by
  rw [visit, h]
  rfl

/-- A walk finds what is at the places of fixtures and has listed no directory whose path is too
long, or it stops at such a directory. -/
theorem walk_cases (root : Path) (hr : fs.isDirAt (r ++ d) = true) :
    walk fs root k (below root r) (r ++ d) = .ok ((places fs d k r).map (foundAt root)) ∧
        (∀ q, q.length < k → fs.isDirAt (q ++ r ++ d) = true → ¬ IsTooLong root (q ++ r)) ∨
      ∃ e, walk fs root k (below root r) (r ++ d) = .error e ∧
        ∃ l, fs.isDirAt (l ++ d) = true ∧ IsTooLong root l ∧
          e = .discovery (below root l) (.os .nameTooLong) := by
  induction k generalizing r with
  | zero => exact .inl ⟨rfl, fun q hq => absurd hq (Nat.not_lt_zero _)⟩
  | succ k ih =>
    by_cases hlong : IsTooLong root r
    · exact .inr ⟨_, by rw [walk]; exact if_pos hlong, r, hr, hlong, rfl⟩
    -- each directory in this one is walked or stops the walk, by the levels that are left
    have hvisits := mapM_cases (f := visit fs root k (below root r) (r ++ d))
      (g := fun n => ((if isFixtureName (Text.Utf8.decodeLossy n) then [n :: r] else []) ++
        places fs d k (n :: r)).map (foundAt root))
      (P := fun n => ∀ q, q.length < k → fs.isDirAt (q ++ n :: r ++ d) = true →
        ¬ IsTooLong root (q ++ n :: r))
      (E := fun e => ∃ l, fs.isDirAt (l ++ d) = true ∧ IsTooLong root l ∧
        e = .discovery (below root l) (.os .nameTooLong))
      fun n (hn : n ∈ folders fs (r ++ d)) => by
        obtain ⟨hok, hshort⟩ | ⟨e, he, hstop⟩ := ih (r := n :: r) (mem_folders.1 hn)
        · refine .inl ⟨(visit_of_ok hok).trans ?_, hshort⟩
          rw [List.map_append]
          split <;> rfl
        · exact .inr ⟨e, visit_of_error he, hstop⟩
    rw [walk_succ fs root k hlong]
    obtain ⟨hok, hshort⟩ | ⟨e, he, hstop⟩ := hvisits
    · rw [hok]
      refine .inl ⟨?_, fun q hq hdir => ?_⟩
      · show Except.ok _ = Except.ok _
        rw [places, List.map_flatMap, List.flatMap_def]
      · obtain rfl | hq' := eq_or_ne q []
        · exact hlong
        · obtain ⟨q', n, rfl⟩ : ∃ q' n, q = q' ++ [n] :=
            ⟨_, _, (List.dropLast_concat_getLast hq').symm⟩
          rw [List.append_assoc q' [n] r, List.singleton_append] at hdir ⊢
          rw [List.length_append, List.length_singleton] at hq
          have hn : fs.isDirAt (n :: (r ++ d)) = true := by
            rw [List.append_assoc] at hdir
            exact FileSystem.isDirAt_of_append hdir
          exact hshort n (mem_folders.2 hn) q' (Nat.lt_of_succ_lt_succ hq) hdir
    · rw [he]
      exact .inr ⟨e, rfl, hstop⟩

end Discovery

end Assay
