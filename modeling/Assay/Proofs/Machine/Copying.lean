import Assay.Proofs.Machine.Sight

/-!
# Machine — tools that copy

A host whose tools, called with an empty first argument, write what they read where they are told to
write, and do nothing if called in another way. An interpreter never gets an empty argument before
those of its script (`args_of_locate`), so what such a tool does follows from how it was started,
and the host is confined (`confined`).
-/

namespace Assay

namespace FileSystem

variable {fs : FileSystem}

/-- A program is started with the arguments of the command line, behind some that are not empty if
it is an interpreter. -/
theorem args_of_imageWithin {k : Nat} {p : Path} {i image : Image}
    (h : fs.imageWithin k p i = .ok image) :
    image.args = i.args ∨ ∃ a, image.args.head? = some a ∧ a ≠ [] := by
  induction k generalizing p i with
  | zero => cases h
  | succ k ih =>
    rw [imageWithin] at h
    cases hs : fs.startable p with
    | error why => rw [hs] at h; cases h
    | ok f =>
      rw [hs] at h
      simp only [bind, Except.bind] at h
      split at h
      · cases h
        exact .inl rfl
      cases hint : Image.interpreter? f with
      | none => rw [hint] at h; cases h
      | some found =>
        obtain ⟨name, args⟩ := found
        rw [hint] at h
        obtain hargs | hhead := ih h
        · refine .inr ?_
          rw [hargs]
          cases args with
          | nil =>
            obtain ⟨l, hl⟩ := lookup_of_startable hs
            obtain ⟨⟨-, hempty, -⟩, -⟩ := resolve_eq_ok.1 (lookup_eq_ok.1 hl)
            exact ⟨p.bytes, rfl, List.isEmpty_eq_false_iff.1 hempty⟩
          | cons a args =>
            exact ⟨a, rfl, ((Image.infix_of_interpreter? hint).2 a List.mem_cons_self).2⟩
        · exact .inr hhead

end FileSystem

namespace Host

variable {host : Host} {fs : FileSystem} {i : Invocation} {image : Image}

/-- A program that was looked up has the arguments of its command line, or is an interpreter with a
first argument that is not empty. -/
theorem args_of_search {ds : List Path} {fault : Fault}
    (h : host.search fs i ds fault = .ok image) :
    image.args = i.args ∨ ∃ a, image.args.head? = some a ∧ a ≠ [] := by
  induction ds generalizing fault with
  | nil => cases h
  | cons d ds ih =>
    rw [search] at h
    split at h
    next hd =>
      cases h
      exact FileSystem.args_of_imageWithin hd
    · exact ih h
    · exact ih h
    · exact ih h
    · cases h

/-- A program that was located has the arguments of its command line, or is an interpreter with a
first argument that is not empty. -/
theorem args_of_locate (h : host.locate fs i = .ok image) :
    image.args = i.args ∨ ∃ a, image.args.head? = some a ∧ a ≠ [] := by
  rw [locate] at h
  split at h
  · cases h
  split at h
  · exact FileSystem.args_of_imageWithin h
  split at h
  · cases h
  · exact args_of_search h

end Host

namespace Copying

/-- What a tool does with the files that it is given: with an empty first argument it copies the
first of them. -/
def deed (image : Image) (given : List (Option File)) : Deed where
  stdout := []
  stderr := []
  exit := .ok (some (.code 0))
  output := if image.args.head? = some [] then (given.findSome? id).map fun f => ⟨f.content, true⟩
    else none

def host : Host where
  searchPath := []
  tempDir := .ofString "/tmp"
  environment := []
  act fs image _ := (deed image (image.given fs)).act ⟨⟨image.name⟩, image.args⟩ image fs

/-- Where the tools write depends on the command line alone. -/
def confined : host.Confined where
  deed image _ given := deed image given
  law fs i image limit h := by
    show Deed.act _ _ _ _ = _
    rw [Deed.act, Deed.act, Deed.leave, Deed.leave]
    obtain hargs | ⟨a, ha, hne⟩ := Host.args_of_locate h
    · rw [hargs]
    · have hnone : (deed image (image.given fs)).output = none := by
        rw [deed, ha]
        exact if_neg fun he => hne (Option.some.inj he)
      rw [hnone]
      cases (Invocation.operands i.args).output <;>
        cases (Invocation.operands image.args).output <;> rfl

/-- A copy holds what was copied. -/
theorem neverGuesses (x : Bytes) : confined.NeverGuesses x := by
  intro image limit given f hf hx
  have hcopy : (given.findSome? id).map (fun f => (⟨f.content, true⟩ : File)) = some f := by
    have hout : (if image.args.head? = some [] then _ else none) = some f := hf
    split at hout
    · exact hout
    · cases hout
  obtain ⟨g, hg, rfl⟩ := Option.map_eq_some_iff.1 hcopy
  obtain ⟨o, ho, rfl⟩ := List.exists_of_findSome?_eq_some hg
  exact .inr ⟨g, ho, hx⟩

end Copying

end Assay
