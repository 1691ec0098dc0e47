import Assay.Proofs.FileSystem.Passage
import Assay.Proofs.Machine.Sight
import Assay.Proofs.Pool.Isolation
import Assay.Proofs.Scratch.Naming

/-!
# Scratch — several directories side by side

A site is a directory with a number of scratch directories in it, each with a mark of its own in its
name that is found nowhere else. To one of them all but the others can be seen: `Calm` says of a
machine that nothing which it can see leads to one of the others, and `Alike` that two machines are
calm and cannot be told apart by it. Whatever is done in the one directory is out of sight for the
others (`Within`, `alike_of_within`), and making and removing it does the same in machines that are
alike (`isLocal_create`, `isLocal_cleanup`).
-/

namespace Assay

open FileSystem (Clear Same Plain Tidy Avoids Marked Reaches Ready)
open Scratch (IsId)
open Assay.Path (IsSegment)

/-- Scratch directories by number below a base, which leads to the place of the directory that they
are in. -/
structure Site where
  base : Path
  place : Loc
  count : Nat
  name : Nat → Bytes
  mark : Nat → Bytes
  isId : ∀ n < count, IsId (mark n)
  isSegment : ∀ n < count, IsSegment (name n)
  marked : ∀ n < count, mark n <:+: name n
  apart : ∀ n < count, ∀ k < count, k ≠ n → ¬ mark k <:+: name n
  free : ∀ n < count, ¬ mark n <:+: base.bytes

namespace Site

variable (S : Site)

/-- The names of some of the directories. -/
def Names (P : Nat → Prop) (x : Bytes) : Prop := ∃ n < S.count, P n ∧ x = S.name n

/-- The marks of some of the directories. -/
def Marks (P : Nat → Prop) (x : Bytes) : Prop := ∃ n < S.count, P n ∧ x = S.mark n

/-- The path of a directory. -/
def path (n : Nat) : Path := S.base.join ⟨S.name n⟩

/-- The place of a directory. -/
def home (n : Nat) : Loc := S.name n :: S.place

variable {S} {P Q : Nat → Prop} {n k : Nat} {fs fs' : FileSystem}

/-- The name of a directory has its mark in it, and no mark has a slash. -/
theorem marked_names (P : Nat → Prop) : Marked (S.Marks P) (S.Names P) where
  marked := by
    rintro _ ⟨n, hn, hP, rfl⟩
    exact ⟨S.mark n, ⟨n, hn, hP, rfl⟩, S.marked n hn⟩
  slash := by
    rintro _ ⟨n, hn, -, rfl⟩
    exact (S.isId n hn).slash_not_mem

theorem Names.mono (h : ∀ n, P n → Q n) {x : Bytes} (hx : S.Names P x) : S.Names Q x := by
  obtain ⟨n, hn, hP, rfl⟩ := hx
  exact ⟨n, hn, h n hP, rfl⟩

theorem Marks.mono (h : ∀ n, P n → Q n) {x : Bytes} (hx : S.Marks P x) : S.Marks Q x := by
  obtain ⟨n, hn, hP, rfl⟩ := hx
  exact ⟨n, hn, h n hP, rfl⟩

/-- The base says no mark. -/
theorem free_base (P : Nat → Prop) : Free (S.Marks P) S.base.bytes := by
  rintro _ ⟨n, hn, -, rfl⟩
  exact S.free n hn

/-- A directory's name says no mark but its own. -/
theorem free_name (hn : n < S.count) : Free (S.Marks (· ≠ n)) (S.name n) := by
  rintro _ ⟨k, hk, hne, rfl⟩
  exact S.apart n hn k hk hne

/-- A directory's path says no mark but its own. -/
theorem free_path (hn : n < S.count) : Free (S.Marks (· ≠ n)) (S.path n).bytes :=
  (free_base _).join (marked_names _).slash (free_name hn)

/-! ### What one directory can see -/

/-- Whether the base leads to the place, or is empty and stands for it. -/
def Based (S : Site) (fs : FileSystem) : Prop :=
  S.base.isEmpty = true ∧ S.place = fs.cwd ∨ fs.openDir S.base = .ok S.place

/-- Whether nothing that the `n`-th directory can see leads to one of the others. -/
structure Quiet (S : Site) (n : Nat) (fs : FileSystem) : Prop where
  based : S.Based fs
  cwd : Clear (S.Names fun _ => True) S.place fs.cwd
  links : ∀ l t, Clear (S.Names (· ≠ n)) S.place l → fs.get? l = some (.link t) →
    Clear (S.Names fun _ => True) S.place l ∧ Free (S.Marks fun _ => True) t.bytes
  contents : ∀ l f, Clear (S.Names (· ≠ n)) S.place l → fs.get? l = some (.file f) →
    Free (S.Marks (· ≠ n)) f.content

/-- Directories can be made below the base. -/
theorem Based.ready (h : S.Based fs) : fs.Ready S.base :=
  h.imp And.left fun h => FileSystem.isDir_iff.2 ⟨_, FileSystem.openDir_eq_ok.1 h⟩

/-- What is made below the base stands at the place. -/
theorem Based.reaches (h : S.Based fs) : fs.Reaches S.base S.place := by
  obtain ⟨hempty, hplace⟩ | h := h
  · rw [hplace]
    exact FileSystem.reaches_of_isEmpty hempty
  · exact FileSystem.reaches_of_openDir h

namespace Quiet

/-- What a directory can see is tidy with respect to the others. -/
theorem tidy (h : S.Quiet n fs) : Tidy (S.Marks (· ≠ n)) (S.Names (· ≠ n)) S.place fs where
  cwd := h.cwd.mono fun _ => Names.mono fun _ _ => trivial
  links l t hl ht := ((h.links l t hl ht).2).mono fun _ => Marks.mono fun _ _ => trivial
  contents := h.contents

/-- No link that a directory can see leads to any of them, itself included. -/
theorem plain_all (h : S.Quiet n fs) : Plain (S.Names fun _ => True) S.place fs where
  cwd := h.cwd
  links l t hl ht := (marked_names _).avoids
    (h.links l t (hl.mono fun _ => Names.mono fun _ _ => trivial) ht).2

/-- The base does not lead through any of the directories. -/
theorem based_of_same (h : S.Quiet n fs) (hs : Same (S.Names fun _ => True) S.place fs' fs) :
    S.Based fs' := by
  have hopen := FileSystem.openDir_same hs h.plain_all ((marked_names _).avoids (free_base _))
  rw [Based, hs.cwd, hopen]
  exact h.based

/-- A change that it cannot see. -/
theorem of_same (h : S.Quiet n fs) (hs : Same (S.Names (· ≠ n)) S.place fs' fs) :
    S.Quiet n fs' where
  based := h.based_of_same (hs.mono fun _ => Names.mono fun _ _ => trivial)
  cwd := hs.cwd ▸ h.cwd
  links l t hl ht := h.links l t hl (hs.get? l hl ▸ ht)
  contents l f hl hf := h.contents l f hl (hs.get? l hl ▸ hf)

/-- A change in the directory that brings no link and no file with the mark of another. -/
theorem of_change (h : S.Quiet n fs) (hs : Same (S.Names (· = n)) S.place fs' fs)
    (hnew : ∀ l e, fs'.get? l = some e →
      fs.get? l = some e ∨ e = .dir ∨ ∃ f, e = .file f ∧ Free (S.Marks (· ≠ n)) f.content) :
    S.Quiet n fs' where
  based := h.based_of_same (hs.mono fun _ => Names.mono fun _ _ => trivial)
  cwd := hs.cwd ▸ h.cwd
  links l t hl ht := by
    obtain hold | hdir | ⟨f, hf, -⟩ := hnew l _ ht
    · exact h.links l t hl hold
    · cases hdir
    · cases hf
  contents l f hl hf := by
    obtain hold | hdir | ⟨g, hg, hfree⟩ := hnew l _ hf
    · exact h.contents l f hl hold
    · cases hdir
    · cases hg
      exact hfree

end Quiet

/-! ### Machines -/

/-- Whether no removal is refused and nothing that the `n`-th directory can see leads to another. -/
def Calm (S : Site) (n : Nat) (m : Machine) : Prop := m.refusals = [] ∧ S.Quiet n m.files

/-- Whether two machines are calm and cannot be told apart by the `n`-th directory. -/
def Alike (S : Site) (n : Nat) (m m' : Machine) : Prop :=
  S.Calm n m ∧ S.Calm n m' ∧ Same (S.Names (· ≠ n)) S.place m.files m'.files

/-- Whether a machine has changed in the `n`-th directory only. -/
def Within (S : Site) (n : Nat) (m m' : Machine) : Prop :=
  m'.refusals = m.refusals ∧ Same (S.Names (· = n)) S.place m'.files m.files

theorem Within.refl (m : Machine) : S.Within n m m := ⟨rfl, .refl _⟩

/-- What is done in one directory in two steps is done in it. -/
theorem Within.trans {m m' m'' : Machine} (h : S.Within n m m') (h' : S.Within n m' m'') :
    S.Within n m m'' := ⟨h'.1.trans h.1, h'.2.trans h.2⟩

/-- What happens in one directory is out of sight for another. -/
theorem alike_of_within {m m' m'' : Machine} (hne : n ≠ k) (h : S.Within n m m')
    (ha : S.Alike k m m'') : S.Alike k m' m'' := by
  obtain ⟨⟨hrefusals, hquiet⟩, hcalm, hsame⟩ := ha
  have hs : Same (S.Names (· ≠ k)) S.place m'.files m.files :=
    h.2.mono fun _ => Names.mono fun _ he => he ▸ hne
  exact ⟨⟨h.1.trans hrefusals, hquiet.of_same hs⟩, hcalm, hs.trans hsame⟩

/-- Whether something done to a machine stays in the `n`-th directory, and is the same in machines
that the directory cannot tell apart. -/
structure IsLocal {α : Type} (S : Site) (n : Nat) (f : Machine → α × Machine) : Prop where
  calm : ∀ m, S.Calm n m → S.Calm n (f m).2
  within : ∀ m, S.Calm n m → S.Within n m (f m).2
  same : ∀ m m', S.Alike n m m' → (f m).1 = (f m').1 ∧
    Same (S.Names (· ≠ n)) S.place (f m).2.files (f m').2.files

/-- A local action is a step that is isolated from those of the others. -/
theorem IsLocal.isolated {α : Type} {f : Machine → α × Machine} (h : S.IsLocal n f) :
    (Task.act f).Isolated (S.Alike n) (S.Within n) :=
  Task.isolated_act fun m m' ha => by
    obtain ⟨hresult, hsame⟩ := h.same m m' ha
    exact ⟨hresult, ⟨h.calm m ha.1, h.calm m' ha.2.1, hsame⟩, h.within m ha.1⟩

/-! ### Making and removing -/

/-- The path of a directory goes past all others. -/
theorem avoids_path (hn : n < S.count) : Avoids (S.Names (· ≠ n)) (S.path n).steps :=
  (marked_names _).avoids (free_path hn)

/-- What a change that may fail leaves. -/
theorem Calm.attempt {m : Machine} (h : S.Calm n m) {op : FileSystem → Except Fault FileSystem}
    (hop : ∀ fs', op m.files = .ok fs' → Same (S.Names (· = n)) S.place fs' m.files ∧
      ∀ l e, fs'.get? l = some e → m.files.get? l = some e ∨ e = .dir ∨
        ∃ f, e = .file f ∧ Free (S.Marks (· ≠ n)) f.content) :
    S.Calm n (m.attempt op).2 ∧ S.Within n m (m.attempt op).2 := by
  rw [Machine.attempt]
  cases ho : op m.files with
  | error why => exact ⟨h, .refl m⟩
  | ok fs' =>
    obtain ⟨hs, hnew⟩ := hop fs' ho
    exact ⟨⟨h.1, h.2.of_change hs hnew⟩, rfl, hs⟩

/-- An attempt has the same outcome on machines whose files are the same in sight. -/
theorem attempt_same {bad : Bytes → Prop} {b : Loc} {op : FileSystem → Except Fault FileSystem}
    {m m' : Machine} (h : FileSystem.SameOutcome bad b (op m.files) (op m'.files))
    (hs : Same bad b m.files m'.files) :
    (m.attempt op).1 = (m'.attempt op).1 ∧
      Same bad b (m.attempt op).2.files (m'.attempt op).2.files := by
  rw [Machine.attempt, Machine.attempt]
  cases ho : op m.files with
  | error why =>
    cases ho' : op m'.files with
    | error why' =>
      rw [ho, ho'] at h
      exact ⟨congrArg Except.error h, hs⟩
    | ok fs =>
      rw [ho, ho'] at h
      exact h.elim
  | ok fs =>
    cases ho' : op m'.files with
    | error why' =>
      rw [ho, ho'] at h
      exact h.elim
    | ok fs' =>
      rw [ho, ho'] at h
      exact ⟨rfl, h⟩

/-- An attempt is local if it changes nothing but the directory, leaves no link and no foreign mark
there, and does the same to files that are the same in sight. -/
theorem isLocal_attempt {op : FileSystem → Except Fault FileSystem}
    (hop : ∀ fs fs', S.Quiet n fs → op fs = .ok fs' → Same (S.Names (· = n)) S.place fs' fs ∧
      ∀ l e, fs'.get? l = some e → fs.get? l = some e ∨ e = .dir ∨
        ∃ f, e = .file f ∧ Free (S.Marks (· ≠ n)) f.content)
    (hsame : ∀ fs fs', Same (S.Names (· ≠ n)) S.place fs fs' →
      Plain (S.Names (· ≠ n)) S.place fs' →
      FileSystem.SameOutcome (S.Names (· ≠ n)) S.place (op fs) (op fs')) :
    S.IsLocal n fun m => m.attempt op where
  calm _ h := (h.attempt fun fs' => hop _ fs' h.2).1
  within _ h := (h.attempt fun fs' => hop _ fs' h.2).2
  same _ _ h := attempt_same (hsame _ _ h.2.2 (h.2.1.2.tidy.plain (marked_names _))) h.2.2

/-- To make the directory is local to it. -/
theorem isLocal_makeDir (hn : n < S.count) :
    S.IsLocal n fun m => m.attempt (·.makeDir (S.path n)) := by
  refine isLocal_attempt (fun fs fs' hq hm => ?_) fun fs fs' hs hp =>
    FileSystem.makeDir_same hs hp (avoids_path hn)
  obtain ⟨-, name, hd, hn', rfl⟩ := FileSystem.makeDir_below hq.based.reaches (S.isSegment n hn) hm
  refine ⟨FileSystem.same_insert ⟨n, hn, rfl, rfl⟩ (List.suffix_refl _), fun l e he => ?_⟩
  rw [FileSystem.get?_insert] at he
  split at he
  · exact .inr (.inl (Option.some.inj he).symm)
  · exact .inl he

/-- To remove the directory is local to it. -/
theorem isLocal_removeTree (hn : n < S.count) :
    S.IsLocal n fun m => m.attempt (·.removeTree (S.path n)) := by
  refine isLocal_attempt (fun fs fs' hq hm => ?_) fun fs fs' hs hp =>
    FileSystem.removeTree_same hs hp (avoids_path hn)
  obtain rfl := FileSystem.removeTree_below hq.based.reaches (S.isSegment n hn) hm
  refine ⟨FileSystem.same_erase ⟨n, hn, rfl, rfl⟩, fun l e he => ?_⟩
  rw [FileSystem.get?_erase] at he
  split at he
  · cases he
  · exact .inl he

/-- What becomes of something local by a function of its result. -/
theorem IsLocal.map {α β : Type} {f : Machine → α × Machine} (h : S.IsLocal n f) (g : α → β) :
    S.IsLocal n fun m => (g (f m).1, (f m).2) where
  calm := h.calm
  within := h.within
  same m m' ha := ⟨congrArg g (h.same m m' ha).1, (h.same m m' ha).2⟩

/-- What does the same on all calm machines as a local action is local. -/
theorem IsLocal.congr {α : Type} {f f' : Machine → α × Machine} (h : S.IsLocal n f)
    (he : ∀ m, S.Calm n m → f' m = f m) : S.IsLocal n f' where
  calm m hm := by rw [he m hm]; exact h.calm m hm
  within m hm := by rw [he m hm]; exact h.within m hm
  same m m' ha := by rw [he m ha.1, he m' ha.2.1]; exact h.same m m' ha

theorem isLocal_pure {α : Type} (a : α) : S.IsLocal n fun m => (a, m) where
  calm _ h := h
  within m _ := .refl m
  same _ _ h := ⟨rfl, h.2.2⟩

/-- What an attempt to make a scratch directory comes to. -/
def created (S : Site) (n : Nat) : Except Fault Unit → Except Error Scratch
  | .error why => .error (.scratch (S.path n) why)
  | .ok ()     => .ok ⟨S.path n, false⟩

/-- In a calm machine all directories above are there already. -/
theorem Calm.create_eq {m : Machine} (h : S.Calm n m) {label id : String}
    (hname : S.name n = Text.Utf8.encode (Scratch.dirName label id)) :
    Scratch.create S.base label id m =
      (m.attempt (·.makeDir (S.path n))).map (S.created n) (fun m => m) := by
  have hpath : S.base.child (Scratch.dirName label id) = S.path n := by rw [path, hname]; rfl
  have hdirs : m.onFiles (·.makeDirs S.base) = (.ok (), m) := by
    rw [Machine.onFiles, FileSystem.makeDirs_of_ready h.2.based.ready]
  simp only [Scratch.create, hpath, hdirs]
  cases m.attempt (·.makeDir (S.path n)) with
  | mk made m => cases made <;> rfl

/-- To create a scratch directory is local to it. -/
theorem isLocal_create (hn : n < S.count) {label id : String}
    (hname : S.name n = Text.Utf8.encode (Scratch.dirName label id)) :
    S.IsLocal n (Scratch.create S.base label id) :=
  ((isLocal_makeDir hn).map (S.created n)).congr fun _ hm => hm.create_eq hname

/-- On a calm machine no removal is refused. -/
theorem Calm.removeTree_eq {m : Machine} (h : S.Calm n m) (p : Path) :
    m.removeTree p = m.attempt (·.removeTree p) := by
  rw [Machine.removeTree, h.1]

/-- What becomes of a directory that could be removed, or not. -/
def settled (p : Path) : Except Fault Unit → Except Error Unit × Scratch
  | .ok ()                 => (.ok (), ⟨p, true⟩)
  | .error (.os .notFound) => (.ok (), ⟨p, true⟩)
  | .error why             => (.error (.file why), ⟨p, false⟩)

/-- To clean a scratch directory up is local to it, whether or not it has been removed before. -/
theorem isLocal_cleanup (hn : n < S.count) (removed : Bool) :
    S.IsLocal n fun m =>
      let (outcome, scratch, m) := (⟨S.path n, removed⟩ : Scratch).cleanup m
      ((outcome, scratch), m) := by
  cases removed with
  | true => exact isLocal_pure (Except.ok (), (⟨S.path n, true⟩ : Scratch))
  | false =>
    refine ((isLocal_removeTree hn).map (settled (S.path n))).congr fun m hm => ?_
    simp only [Scratch.cleanup, hm.removeTree_eq, Bool.false_eq_true, if_false]
    cases m.attempt (·.removeTree (S.path n)) with
    | mk outcome m =>
      cases outcome with
      | ok _ => rfl
      | error why =>
        cases why with
        | os e => cases e <;> rfl
        | nulInPath | nulInArgument | notText | other => rfl

/-- To drop a scratch directory is local to it. -/
theorem isLocal_drop (hn : n < S.count) (removed : Bool) :
    S.IsLocal n fun m => ((), (⟨S.path n, removed⟩ : Scratch).drop m) :=
  (isLocal_cleanup hn removed).map fun _ => ()

end Site

end Assay
