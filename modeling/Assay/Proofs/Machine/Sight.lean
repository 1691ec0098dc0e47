import Assay.Machine.Basic
import Assay.Proofs.FileSystem.Change
import Assay.Proofs.Path.Steps

/-!
# Machine — programs that see the same

A text is free of some marks if none of them is part of it. Where every bad name holds a mark, a
path that is free of them avoids the bad names. In file systems that cannot be told apart by such
paths, and whose clear files are free of the marks too (`Tidy`), command lines without marks start
the same programs, with texts without marks (`locate_same`), and these are given the same files
(`given_same`).
-/

namespace Assay

/-- Whether none of some marks is part of a text. -/
def Free (marks : Bytes → Prop) (t : Bytes) : Prop := ∀ x, marks x → ¬ x <:+: t

/-- What is part of a free text is free. -/
theorem Free.of_infix {marks : Bytes → Prop} {s t : Bytes} (h : Free marks t) (hs : s <:+: t) :
    Free marks s := fun x hx hi => h x hx (hi.trans hs)

theorem Free.mono {marks marks' : Bytes → Prop} {t : Bytes} (h : Free marks t)
    (hm : ∀ x, marks' x → marks x) : Free marks' t := fun x hx => h x (hm x hx)

/-- Free paths are free when joined, if no mark has a slash. -/
theorem Free.join {marks : Bytes → Prop} {p q : Path} (hm : ∀ x, marks x → Path.slash ∉ x)
    (hp : Free marks p.bytes) (hq : Free marks q.bytes) : Free marks (p.join q).bytes :=
  fun x hx hi => (Path.infix_of_infix_join (hm x hx) hi).elim (hp x hx) (hq x hx)

namespace FileSystem

/-- Whether nothing that can be seen of a file system mentions a mark: its links lead elsewhere, and
its files hold none. -/
structure Tidy (marks bad : Bytes → Prop) (b : Loc) (fs : FileSystem) : Prop where
  cwd : Clear bad b fs.cwd
  links : ∀ l t, Clear bad b l → fs.get? l = some (.link t) → Free marks t.bytes
  contents : ∀ l f, Clear bad b l → fs.get? l = some (.file f) → Free marks f.content

/-- Whether each bad name holds a mark, and no mark a slash. -/
structure Marked (marks bad : Bytes → Prop) : Prop where
  marked : ∀ n, bad n → ∃ x, marks x ∧ x <:+: n
  slash : ∀ x, marks x → Path.slash ∉ x

section

variable {marks bad : Bytes → Prop} {b l : Loc} {fs fs' : FileSystem} {p : Path}

/-- A path that says no mark enters nothing with a marked name. -/
theorem Marked.avoids (h : Marked marks bad) (hp : Free marks p.bytes) : Avoids bad p.steps :=
  fun n hn hbad => by
    obtain ⟨x, hx, hi⟩ := h.marked n hbad
    exact hp x hx (hi.trans (Path.infix_of_enter hn))

/-- In a tidy tree no link leads out of sight. -/
theorem Tidy.plain (h : Tidy marks bad b fs) (hm : Marked marks bad) : Plain bad b fs where
  cwd := h.cwd
  links l t hl ht := hm.avoids (h.links l t hl ht)

theorem startable_same (h : Same bad b fs fs') (hp : Plain bad b fs') (ha : Avoids bad p.steps) :
    fs.startable p = fs'.startable p := by
  rw [startable, startable, lookup_same h hp ha]

theorem lookup_of_startable {f : File} (h : fs.startable p = .ok f) :
    ∃ l, fs.lookup true p = .ok (l, .file f) := by
  rw [startable] at h
  cases hl : fs.lookup true p with
  | error why => rw [hl] at h; cases h
  | ok found =>
    obtain ⟨l, e⟩ := found
    rw [hl] at h
    cases e with
    | file g =>
      simp only [bind, Except.bind] at h
      split at h
      · cases h
        exact ⟨l, rfl⟩
      · cases h
    | dir | link | device => cases h

/-- The file at a path, as far as that can be read, is one that stands somewhere or an empty one. -/
theorem lookup_of_openFile {f : File} (h : fs.openFile p = .ok f) :
    f.content = [] ∨ ∃ l, fs.lookup true p = .ok (l, .file f) := by
  rw [openFile] at h
  cases hl : fs.lookup true p with
  | error why => rw [hl] at h; cases h
  | ok found =>
    obtain ⟨l, e⟩ := found
    rw [hl] at h
    cases e with
    | file g =>
      cases h
      exact .inr ⟨l, rfl⟩
    | device v =>
      cases h
      exact .inl rfl
    | dir | link => cases h

/-- A file that is found at a clear place is free of marks. -/
theorem Tidy.free_of_lookup (h : Tidy marks bad b fs) (hm : Marked marks bad)
    (hp : Free marks p.bytes) {f : File} (hl : fs.lookup true p = .ok (l, .file f)) :
    Free marks f.content :=
  h.contents l f (clear_of_lookup (h.plain hm) (hm.avoids hp) hl) (get?_of_lookup hl)

end

end FileSystem

/-! ### Interpreters -/

namespace Image

theorem infix_of_dropWhile_reverse {α : Type} (f : α → Bool) (l : List α) :
    (l.reverse.dropWhile f).reverse <:+: l := by
  have h := List.reverse_prefix.2 (List.dropWhile_suffix (l := l.reverse) f)
  rw [List.reverse_reverse] at h
  exact h.isInfix

/-- What the first line of a file names is part of the file. -/
theorem infix_of_interpreter? {f : File} {name : Bytes} {args : List Bytes}
    (h : interpreter? f = some (name, args)) :
    name <:+: f.content ∧ ∀ a ∈ args, a <:+: f.content ∧ a ≠ [] := by
  rw [interpreter?] at h
  split at h
  next r hr =>
    simp only at h
    have hcontent : r <:+: f.content :=
      (List.suffix_cons _ _).isInfix.trans ((List.suffix_cons _ _).isInfix.trans
        (hr ▸ (List.take_prefix headSize f.content).isInfix))
    generalize hline : ((List.dropWhile isBlank (r.takeWhile (· != 0x0A))).reverse.dropWhile
      isBlank).reverse = line at h
    have hinfix : line <:+: f.content :=
      hline ▸ (infix_of_dropWhile_reverse _ _).trans ((List.dropWhile_suffix _).isInfix.trans
        ((List.takeWhile_prefix _).isInfix.trans hcontent))
    split at h
    · cases h
    · obtain ⟨rfl, rfl⟩ := Prod.mk.inj (Option.some.inj h)
      refine ⟨(List.takeWhile_prefix _).isInfix.trans hinfix, fun a ha => ?_⟩
      split at ha
      · cases ha
      next hne =>
        rw [List.mem_singleton.1 ha]
        refine ⟨(List.dropWhile_suffix _).isInfix.trans ((List.drop_suffix _ _).isInfix.trans
          hinfix), fun he => hne ?_⟩
        rw [he]
        rfl
  · cases h

end Image

namespace FileSystem

variable {marks bad : Bytes → Prop} {b : Loc} {fs fs' : FileSystem} {p : Path}

/-- Whether all that a program is started with is free of marks, its file apart. -/
def FreeStart (marks : Bytes → Prop) (i : Image) : Prop :=
  Free marks i.name ∧ (∀ a ∈ i.args, Free marks a) ∧
    ∀ v ∈ i.environment, Free marks v.1 ∧ Free marks v.2

/-- Whether all that a program is started with is free of marks. -/
def FreeImage (marks : Bytes → Prop) (i : Image) : Prop :=
  Free marks i.file.content ∧ FreeStart marks i

/-- The same programs are started along the same interpreters. -/
theorem imageWithin_same (h : Same bad b fs fs') (ht : Tidy marks bad b fs')
    (hm : Marked marks bad) {k : Nat} {i : Image} (hp : Free marks p.bytes)
    (hi : FreeStart marks i) :
    fs.imageWithin k p i = fs'.imageWithin k p i ∧
      ∀ image, fs'.imageWithin k p i = .ok image → FreeImage marks image := by
  induction k generalizing p i with
  | zero => exact ⟨rfl, fun _ himage => nomatch himage⟩
  | succ k ih =>
    rw [imageWithin, imageWithin, startable_same h (ht.plain hm) (hm.avoids hp)]
    cases hs : fs'.startable p with
    | error why => exact ⟨rfl, fun _ himage => nomatch himage⟩
    | ok f =>
      obtain ⟨l, hl⟩ := lookup_of_startable hs
      have hf : Free marks f.content := ht.free_of_lookup hm hp hl
      simp only [bind, Except.bind]
      split
      · refine ⟨rfl, fun image himage => ?_⟩
        cases himage
        exact ⟨hf, hi⟩
      · cases hint : Image.interpreter? f with
        | none => exact ⟨rfl, fun _ himage => nomatch himage⟩
        | some found =>
          obtain ⟨name, args⟩ := found
          obtain ⟨hname, hargs⟩ := Image.infix_of_interpreter? hint
          obtain ⟨-, hrest, henv⟩ := hi
          refine ih (hf.of_infix hname) ⟨hf.of_infix hname, fun a ha => ?_, henv⟩
          obtain ha | ha := List.mem_append.1 ha
          · exact hf.of_infix (hargs a ha).1
          · obtain rfl | ha := List.mem_cons.1 ha
            · exact hp
            · exact hrest a ha

/-- The same program is found at a path in both trees, and nothing it is started with says a mark.
-/
theorem image_same (h : Same bad b fs fs') (ht : Tidy marks bad b fs') (hm : Marked marks bad)
    {name : Bytes} {args : List Bytes} {env : List (Bytes × Bytes)} (hp : Free marks p.bytes)
    (hn : Free marks name) (ha : ∀ a ∈ args, Free marks a)
    (he : ∀ v ∈ env, Free marks v.1 ∧ Free marks v.2) :
    fs.image p name args env = fs'.image p name args env ∧
      ∀ image, fs'.image p name args env = .ok image → FreeImage marks image :=
  imageWithin_same h ht hm hp ⟨hn, ha, he⟩

/-- The same files are given. -/
theorem given_same (h : Same bad b fs fs') (ht : Tidy marks bad b fs') (hm : Marked marks bad)
    {i : Image} (hi : FreeImage marks i) :
    i.given fs = i.given fs' ∧ ∀ f, some f ∈ i.given fs' → Free marks f.content := by
  refine ⟨List.map_congr_left fun a ha => ?_, fun f hf => ?_⟩
  · rw [openFile_same h (ht.plain hm) (hm.avoids (hi.2.2.1 a ha))]
  · obtain ⟨a, ha, hfile⟩ := List.mem_map.1 hf
    cases hopen : fs'.openFile ⟨a⟩ with
    | error why => rw [hopen] at hfile; cases hfile
    | ok g =>
      rw [hopen] at hfile
      obtain rfl := Option.some.inj hfile
      obtain hempty | ⟨l, hl⟩ := lookup_of_openFile hopen
      · rw [hempty]
        intro x hx hinfix
        obtain rfl := List.infix_nil.1 hinfix
        exact hi.1 [] hx List.nil_infix
      · exact ht.free_of_lookup hm (hi.2.2.1 a ha) hl

end FileSystem

namespace Host

open FileSystem

variable {marks bad : Bytes → Prop} {b : Loc} {fs fs' : FileSystem} {host : Host} {i : Invocation}

/-- Whether where a host looks programs up and what it gives them is free of marks. -/
structure IsFree (marks : Bytes → Prop) (host : Host) : Prop where
  search : ∀ d ∈ host.searchPath, Free marks d.bytes
  environment : ∀ v ∈ host.environment, Free marks v.1 ∧ Free marks v.2

/-- A look-up finds the same program in both trees, and nothing it is started with says a mark. -/
theorem search_same (h : Same bad b fs fs') (ht : Tidy marks bad b fs') (hm : Marked marks bad)
    (hh : host.IsFree marks) (hp : Free marks i.program.bytes) (ha : ∀ a ∈ i.args, Free marks a)
    {ds : List Path} (hds : ∀ d ∈ ds, Free marks d.bytes) (fault : Fault) :
    host.search fs i ds fault = host.search fs' i ds fault ∧
      ∀ image, host.search fs' i ds fault = .ok image → FreeImage marks image := by
  induction ds generalizing fault with
  | nil => exact ⟨rfl, fun _ himage => nomatch himage⟩
  | cons d ds ih =>
    obtain ⟨hd, hds⟩ := List.forall_mem_cons.1 hds
    obtain ⟨heq, hfree⟩ := image_same (p := d.join i.program) h ht hm (hd.join hm.slash hp) hp ha
      hh.environment
    rw [search, search, heq]
    split
    next image himage =>
      refine ⟨rfl, fun _ h' => ?_⟩
      cases h'
      exact hfree _ himage
    · exact ih hds fault
    · exact ih hds fault
    · exact ih hds _
    · exact ⟨rfl, fun _ himage => nomatch himage⟩

/-- A command line that is free of marks starts the same program, and all that this is started with
is free of them. -/
theorem locate_same (h : Same bad b fs fs') (ht : Tidy marks bad b fs') (hm : Marked marks bad)
    (hh : host.IsFree marks) (hp : Free marks i.program.bytes) (ha : ∀ a ∈ i.args, Free marks a) :
    host.locate fs i = host.locate fs' i ∧
      ∀ image, host.locate fs' i = .ok image → FreeImage marks image := by
  rw [locate, locate]
  split
  · exact ⟨rfl, fun _ himage => nomatch himage⟩
  split
  · exact image_same h ht hm hp hp ha hh.environment
  split
  · exact ⟨rfl, fun _ himage => nomatch himage⟩
  · exact search_same h ht hm hh hp ha hh.search _

end Host

end Assay
