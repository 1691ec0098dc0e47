import Assay.Outcome
import Assay.Proofs.Text.Quoted

/-!
# Check — what is shown of two texts that differ

A program that wrote something else than was expected is reported in one line that quotes both
texts. `Reason.mismatch_faithful`: the line has no control character in it, and both texts can be
told from it, whatever they hold. It does not matter which characters are hidden, as long as the
controls are; nor that the first text may look like the words between the two, since a quoted text
ends at its own quote.
-/

namespace Assay.Reason

open Text (IsLine IsControl)

variable {hidden : Char → Bool}

/-- A mismatch is shown with both texts in quotes. -/
theorem display_mismatch (hidden : Char → Bool) (expected actual : String) :
    (stdoutMismatch expected actual).displayWith hidden =
      "stdout mismatch: expected " ++ Text.quote hidden expected ++ ", got " ++
        Text.quote hidden actual := by
  have hline : (stdoutMismatch expected actual).displayWith hidden = "stdout mismatch" ++ ": " ++
      ("expected " ++ Text.quote hidden expected ++ ", got " ++ Text.quote hidden actual) := rfl
  have hfront : "stdout mismatch" ++ ": " ++ "expected " = "stdout mismatch: expected " := rfl
  rw [hline, ← hfront, ← String.append_assoc, ← String.append_assoc, ← String.append_assoc]

/-- A control is shown nowhere: the words have none, and the quoted texts have theirs escaped. -/
theorem not_isControl_of_mem_mismatch (hhidden : ∀ c, IsControl c → hidden c = true)
    {expected actual : String} {c : Char}
    (h : c ∈ ((stdoutMismatch expected actual).displayWith hidden).toList) : ¬ IsControl c := by
  have hfront : ∀ c ∈ "stdout mismatch: expected ".toList, ¬ IsControl c :=
    List.forall_iff_forall_mem.1 (by decide)
  have hmiddle : ∀ c ∈ ", got ".toList, ¬ IsControl c := List.forall_iff_forall_mem.1 (by decide)
  rw [display_mismatch, String.toList_append, String.toList_append, String.toList_append,
    List.mem_append, List.mem_append, List.mem_append] at h
  obtain ((h | h) | h) | h := h
  · exact hfront c h
  · exact Text.not_isControl_of_mem_quote hhidden h
  · exact hmiddle c h
  · exact Text.not_isControl_of_mem_quote hhidden h

/-- The line of a mismatch tells both texts. -/
theorem mismatch_inj {expected actual expected' actual' : String}
    (h : (stdoutMismatch expected actual).displayWith hidden =
      (stdoutMismatch expected' actual').displayWith hidden) :
    expected = expected' ∧ actual = actual' := by
  have hlist := congrArg String.toList h
  simp only [display_mismatch, String.append_assoc, String.toList_append, Text.quote,
    String.toList_ofList] at hlist
  obtain ⟨hexpected, hrest⟩ := Text.quoteChars_append_inj (List.append_cancel_left hlist)
  have hactual := List.append_cancel_left hrest
  rw [← List.append_nil (Text.quoteChars _ actual.toList),
    ← List.append_nil (Text.quoteChars _ actual'.toList)] at hactual
  exact ⟨String.toList_injective hexpected,
    String.toList_injective (Text.quoteChars_append_inj hactual).1⟩

/-- The line of a mismatch is one line without any control character, and tells which text was
expected and which one was seen. -/
theorem mismatch_faithful (hhidden : ∀ c, IsControl c → hidden c = true)
    (expected actual : String) :
    IsLine ((stdoutMismatch expected actual).displayWith hidden) ∧
      (∀ c ∈ ((stdoutMismatch expected actual).displayWith hidden).toList, ¬ IsControl c) ∧
      ∀ expected' actual' : String,
        (stdoutMismatch expected' actual').displayWith hidden =
          (stdoutMismatch expected actual).displayWith hidden →
        expected' = expected ∧ actual' = actual := by
  refine ⟨fun hfeed => ?_, fun c => not_isControl_of_mem_mismatch hhidden, fun _ _ => mismatch_inj⟩
  exact not_isControl_of_mem_mismatch hhidden hfeed (by decide)

/-- An expected text that looks like the words behind it, and an actual one with controls. What
stands between the quotes can be cut in two elsewhere, but is not shown so then. -/
theorem mismatch_faithful_lookalike :
    (∀ c, IsControl c → Text.isUnprintable c = true) ∧
      (stdoutMismatch "a\", got \"b" "\x1B\n").display =
        "stdout mismatch: expected \"a\\\", got \\\"b\", got \"\\u\x7b1b\x7d\\n\"" ∧
      IsLine (stdoutMismatch "a\", got \"b" "\x1B\n").display ∧
      (∀ c ∈ (stdoutMismatch "a\", got \"b" "\x1B\n").display.toList, ¬ IsControl c) ∧
      (stdoutMismatch "a" "b\", got \"\\u\x7b1b\x7d\n").display ≠
        (stdoutMismatch "a\", got \"b" "\x1B\n").display := by
  obtain ⟨hline, hshown, hinj⟩ :=
    mismatch_faithful (fun _ => Text.isUnprintable_of_isControl) "a\", got \"b" "\x1B\n"
  refine ⟨fun _ => Text.isUnprintable_of_isControl, by decide +kernel, hline, hshown, fun h => ?_⟩
  exact absurd (hinj _ _ h).1 (by decide)

end Assay.Reason
