import Assay.Build.Toolchain
import Assay.Proofs.Scratch.Site

/-!
# Scratch — programs that are told to write there

A confined program whose command line mentions no other scratch directory, and whose output, if it
has one, goes right into its own, does something local to that directory (`isLocal_run`): what it is
started with and what it is given mentions no other, so neither does what it writes. The command
lines of a build are of this kind (`output_invocation`).
-/

namespace Assay

/-! ### Where a command line says to write -/

namespace Invocation

/-- What is read as the output from the left. -/
theorem output_cons_cons (a b : Bytes) (r : List Bytes) :
    (operands (a :: b :: r)).output =
      if a = outputOption then (operands r).output.or (some ⟨b⟩)
      else (operands (b :: r)).output := by
  rw [operands]
  split
  · rfl
  · simp only
    split <;> rfl

/-- The output option before the last argument counts, unless the argument before it is one too. -/
theorem output_operands {x : Bytes} (hx : x ≠ outputOption) (out : Bytes) :
    ∀ as, (operands (as ++ [x, outputOption, out])).output = some ⟨out⟩
  | []          => by
    rw [List.nil_append, output_cons_cons, if_neg hx]
    rfl
  | [a]         => by
    rw [List.singleton_append, output_cons_cons]
    split
    · rfl
    · exact output_operands hx out []
  | a :: b :: r => by
    rw [List.cons_append, List.cons_append, output_cons_cons]
    split
    · rw [output_operands hx out r]
      rfl
    · exact output_operands hx out (b :: r)

end Invocation

/-- The arguments of a stage, whatever the stage is: its options for the code that it makes stand
before and behind the input, and the output comes last. -/
theorem Stage.args_eq (stage : Stage) (pic : Bool) (input output : Path) :
    stage.args pic input output =
      (if stage = .codegen ∧ pic = true then [Text.Utf8.encode "-relocation-model=pic"] else []) ++
        input.bytes :: (if stage = .codegen then [Text.Utf8.encode "-filetype=obj"] else []) ++
        [Text.Utf8.encode "-o", output.bytes] := by
  cases stage <;> cases pic <;> rfl

/-- The last that a stage says is where it writes. -/
theorem Toolchain.output_last (t : Toolchain) (s : Stage) (input output : Path) :
    ∃ rest, (t.invocation s input output).args =
      rest ++ [Text.Utf8.encode "-o", output.bytes] := by
  have hargs : (t.invocation s input output).args =
      (t.tool s).args.map Text.Utf8.encode ++ s.args t.pic input output := rfl
  rw [hargs, Stage.args_eq, ← List.append_assoc]
  exact ⟨_, rfl⟩

/-- A stage writes where it is told to, whatever stands before its own arguments. -/
theorem Toolchain.output_invocation (t : Toolchain) (s : Stage) {input : Path} (output : Path)
    (h : input.bytes ≠ Invocation.outputOption) :
    (Invocation.operands (t.invocation s input output).args).output = some output := by
  have hflag : Text.Utf8.encode "-o" = Invocation.outputOption := by decide
  have hobj : Text.Utf8.encode "-filetype=obj" ≠ Invocation.outputOption := by decide
  have hplain : ∀ as : List Bytes,
      (Invocation.operands (as ++ [input.bytes, Text.Utf8.encode "-o", output.bytes])).output =
        some output := by
    rw [hflag]
    exact Invocation.output_operands h output.bytes
  cases s with
  | translate | link => exact hplain _
  | codegen =>
    have hargs : (t.invocation .codegen input output).args =
        ((t.tool .codegen).args.map Text.Utf8.encode ++
          ((if t.pic then [Text.Utf8.encode "-relocation-model=pic"] else []) ++ [input.bytes])) ++
        [Text.Utf8.encode "-filetype=obj", Invocation.outputOption, output.bytes] := by
      rw [← hflag]
      simp [invocation, Tool.invocation, Stage.args]
    rw [hargs]
    exact Invocation.output_operands hobj output.bytes _

/-! ### Confined programs -/

open FileSystem (Clear Same Plain FreeImage)
open Assay.Path (IsSegment)

theorem FileSystem.FreeImage.texts {marks : Bytes → Prop} {image : Image}
    (h : FreeImage marks image) : ∀ t ∈ image.texts, Free marks t := by
  obtain ⟨hfile, hname, hargs, henv⟩ := h
  intro t ht
  rw [Image.texts, List.cons_append, List.cons_append, List.mem_cons, List.mem_cons,
    List.mem_append, List.mem_flatMap] at ht
  obtain rfl | rfl | ht | ⟨v, hv, ht⟩ := ht
  · exact hfile
  · exact hname
  · exact hargs t ht
  · obtain rfl | rfl : t = v.1 ∨ t = v.2 := by simpa using ht
    · exact (henv v hv).1
    · exact (henv v hv).2

/-- Whether neither where programs are looked up and what they are given by a host nor what they
think of themselves holds one of some marks. -/
structure Host.Confined.Ignores {host : Host} (hc : host.Confined) (marks : Bytes → Prop) :
    Prop where
  free : host.IsFree marks
  guesses : ∀ x, marks x → hc.NeverGuesses x

/-- What is written by a program that was neither started with a mark nor given one is free. -/
theorem Host.Confined.Ignores.output {host : Host} {hc : host.Confined} {marks : Bytes → Prop}
    (h : hc.Ignores marks) {image : Image} (hi : FreeImage marks image) {limit : Duration}
    {given : List (Option File)} (hgiven : ∀ f, some f ∈ given → Free marks f.content) {f : File}
    (hf : (hc.deed image limit given).output = some f) : Free marks f.content := by
  intro x hx hinfix
  obtain ⟨t, ht, hxt⟩ | ⟨g, hg, hxg⟩ := h.guesses x hx image limit given f hf hinfix
  · exact hi.texts t ht x hx hxt
  · exact hgiven g hg x hx hxg

namespace Site

variable {S : Site} {n : Nat} {fs fs' : FileSystem} {i : Invocation}

theorem name_injective {k : Nat} (hn : n < S.count) (hk : k < S.count)
    (h : S.name k = S.name n) : k = n := by
  by_contra hne
  exact S.apart n hn k hk hne (h ▸ S.marked k hk)

/-- A directory's own places are clear of the others. -/
theorem clear_own (hn : n < S.count) {l : Loc} (h : S.home n <:+ l) :
    Clear (S.Names (· ≠ n)) S.place l := by
  rintro _ ⟨k, hk, hne, rfl⟩ hs
  have hsame := (List.suffix_of_suffix_length_le hs h (Nat.le_refl _)).eq_of_length rfl
  exact hne (name_injective hn hk (List.cons.inj hsame).1)

/-- In a directory of its own there are no links. -/
theorem Quiet.no_link (hq : S.Quiet n fs) (hn : n < S.count) {l : Loc}
    (h : S.home n <:+ l) (t : Path) : fs.get? l ≠ some (.link t) := fun ht =>
  (hq.links l t (clear_own hn h) ht).1 _ ⟨n, hn, trivial, rfl⟩ h

/-- What a file written into the directory changes; the directory itself stays what it is. -/
theorem Quiet.write (hq : S.Quiet n fs) (hn : n < S.count) {m : Bytes} (hm : IsSegment m) {f : File}
    (hf : Free (S.Marks (· ≠ n)) f.content)
    (h : fs.write ((S.path n).join ⟨m⟩) f = .ok fs') :
    S.Quiet n fs' ∧ Same (S.Names (· = n)) S.place fs' fs ∧
      fs'.get? (S.home n) = fs.get? (S.home n) := by
  have hown : S.home n <:+ m :: S.home n := List.suffix_cons _ _
  obtain rfl | ⟨x, name, hd, hn', rfl⟩ := FileSystem.write_below hq.based.reaches (S.isSegment n hn)
    hm (hq.no_link hn (List.suffix_refl _)) (hq.no_link hn hown) h
  · exact ⟨hq, .refl fs', rfl⟩
  · have hs : Same (S.Names (· = n)) S.place
        (fs.insert m (S.home n) (.file ⟨f.content, x⟩) name hd hn') fs :=
      FileSystem.same_insert ⟨n, hn, rfl, rfl⟩ hown
    refine ⟨hq.of_change hs fun l e he => ?_, hs, ?_⟩
    · rw [FileSystem.get?_insert] at he
      split at he
      · exact .inr (.inr ⟨_, (Option.some.inj he).symm, hf⟩)
      · exact .inl he
    · rw [FileSystem.get?_insert, if_neg]
      exact fun he => absurd (congrArg List.length he) (by simp [home])

/-- Whether a command line mentions no other scratch directory, and has its output, if it has one,
right in the `n`-th. -/
structure Owns (S : Site) (n : Nat) (i : Invocation) : Prop where
  program : Free (S.Marks (· ≠ n)) i.program.bytes
  args : ∀ a ∈ i.args, Free (S.Marks (· ≠ n)) a
  output : ∀ p, (Invocation.operands i.args).output = some p →
    ∃ m, IsSegment m ∧ Free (S.Marks (· ≠ n)) m ∧ p = (S.path n).join ⟨m⟩

theorem Owns.leave (ho : S.Owns n i) (hn : n < S.count) (hq : S.Quiet n fs) {d : Deed}
    (hd : ∀ f, d.output = some f → Free (S.Marks (· ≠ n)) f.content) :
    S.Quiet n (d.leave i fs) ∧ Same (S.Names (· = n)) S.place (d.leave i fs) fs ∧
      (d.leave i fs).get? (S.home n) = fs.get? (S.home n) := by
  rw [Deed.leave]
  split
  next p f hp hf =>
    obtain ⟨m, hm, -, rfl⟩ := ho.output p hp
    cases hw : fs.write ((S.path n).join ⟨m⟩) f with
    | error why => exact ⟨hq, .refl fs, rfl⟩
    | ok fs' => exact hq.write hn hm (hd f hf) hw
  next => exact ⟨hq, .refl fs, rfl⟩

theorem Owns.leave_same (ho : S.Owns n i) (hn : n < S.count)
    (hs : Same (S.Names (· ≠ n)) S.place fs fs') (hq : S.Quiet n fs') (d : Deed) :
    Same (S.Names (· ≠ n)) S.place (d.leave i fs) (d.leave i fs') := by
  have hmarked := marked_names (S := S) (· ≠ n)
  rw [Deed.leave, Deed.leave]
  split
  next p f hp hf =>
    obtain ⟨m, -, hfree, rfl⟩ := ho.output p hp
    refine (FileSystem.write_same hs (hq.tidy.plain hmarked) ?_).getD hs
    exact hmarked.avoids ((free_path hn).join hmarked.slash hfree)
  next => exact hs

section

variable {host : Host} {hc : host.Confined} (hi : hc.Ignores (S.Marks (· ≠ n))) (ho : S.Owns n i)
  (hn : n < S.count) (limit : Duration)

include hi ho hn

theorem Calm.run {m : Machine} (h : S.Calm n m) :
    S.Calm n (i.run host limit m).2 ∧ S.Within n m (i.run host limit m).2 ∧
      (i.run host limit m).2.files.get? (S.home n) = m.files.get? (S.home n) := by
  have htidy := h.2.tidy
  have hmarked := marked_names (S := S) (· ≠ n)
  obtain ⟨-, hfree⟩ := Host.locate_same (.refl m.files) htidy hmarked hi.free ho.program ho.args
  rw [Invocation.run]
  cases hl : host.locate m.files i with
  | error why => exact ⟨h, .refl m, rfl⟩
  | ok image =>
    have himage := hfree image hl
    obtain ⟨-, hgiven⟩ := FileSystem.given_same (.refl m.files) htidy hmarked himage
    obtain ⟨hquiet, hsame, hhome⟩ :=
      ho.leave hn h.2 (d := hc.deed image limit (image.given m.files)) fun f =>
        hi.output himage hgiven
    simp only
    rw [hc.law m.files i image limit hl]
    exact ⟨⟨h.1, hquiet⟩, ⟨rfl, hsame⟩, hhome⟩

/-- A program that is told to write into the directory does the same wherever the directory sees the
same. -/
theorem isLocal_run : S.IsLocal n fun m => i.run host limit m where
  calm _ h := (h.run hi ho hn limit).1
  within _ h := (h.run hi ho hn limit).2.1
  same m m' := by
    rintro ⟨hm, hm', hs⟩
    have htidy := hm'.2.tidy
    have hmarked := marked_names (S := S) (· ≠ n)
    obtain ⟨hlocate, hfree⟩ := Host.locate_same hs htidy hmarked hi.free ho.program ho.args
    rw [Invocation.run, Invocation.run, hlocate]
    cases hl : host.locate m'.files i with
    | error why => exact ⟨rfl, hs⟩
    | ok image =>
      obtain ⟨hgiven, -⟩ := FileSystem.given_same hs htidy hmarked (hfree image hl)
      simp only
      rw [hc.law m.files i image limit (hlocate.trans hl), hc.law m'.files i image limit hl, hgiven]
      exact ⟨rfl, ho.leave_same hn hs hm'.2 _⟩

end

end Site

end Assay
