import Assay.Proofs.Report.Captured
import Assay.Proofs.Report.Counts
import Assay.Proofs.Report.Document
import Mathlib.Data.List.TFAE

/-!
# Report — all verdicts agree

What a report says about success it says in many places: in its exit code, in its verdict, in the
verdicts and the counts of its suites, in the last line that is printed and in its document. They
all say the same for every report (`RunReport.verdicts_agree`), also for one without suites, with
suites without fixtures, or with names that break lines. And the numbers that are printed below each
suite and in the last line, and those of the document, are the counts: no other numbers stand there
(`showsCounts_iff`, `endsWithCounts_iff`).
-/

namespace Assay

open Text (IsLine isLine_append)

/-- A number in front of a blank is determined, and so is what is behind the blank. -/
theorem toString_append_inj {m n : Nat} {s t : List Char}
    (h : (toString m).toList ++ ' ' :: s = (toString n).toList ++ ' ' :: t) : m = n ∧ s = t := by
  obtain ⟨hdigits, hrest⟩ :=
    Text.append_mark_inj (not_mem_toString_nat rfl m) (not_mem_toString_nat rfl n) h
  simp only [Nat.toString_eq_ofList_toDigits, String.toList_ofList] at hdigits
  have hvalue := congrArg (Nat.ofDigitChars 10 · 0) hdigits
  simp only [Nat.ofDigitChars_ten_toDigits] at hvalue
  exact ⟨hvalue, hrest⟩

/-- Two counts can be told from their text, and so can what is behind it. -/
theorem countText_append_inj {passed failed passed' failed' : Nat} {s t : String}
    (h : countText passed failed ++ s = countText passed' failed' ++ t) :
    passed = passed' ∧ failed = failed' ∧ s = t := by
  have hlist : ∀ p f s, (countText p f ++ s).toList =
      (toString p).toList ++ ' ' :: ("passed, ".toList ++ ((toString f).toList ++
        ' ' :: ("failed".toList ++ s.toList))) := by
    intro p f s
    simp only [countText, String.toList_append, List.append_assoc]
    rfl
  have heq := congrArg String.toList h
  rw [hlist, hlist] at heq
  obtain ⟨hpassed, hrest⟩ := toString_append_inj heq
  obtain ⟨hfailed, hbehind⟩ := toString_append_inj (List.append_cancel_left hrest)
  exact ⟨hpassed, hfailed, String.toList_injective (List.append_cancel_left hbehind)⟩

namespace RunReport

variable {r : RunReport}

/-! ### The counts of a suite -/

/-- Whether a report says in its printed form, between the results of the suite at a place and
what comes behind the suite, that so many passed and so many failed. -/
def ShowsCounts (r : RunReport) (i passed failed : Nat) : Prop :=
  ∃ s, r.suites[i]? = some s ∧
    r.render =
      Text.unlines ((r.suites.take i).flatMap SuiteReport.lines ++
        ("== " ++ s.name) :: s.results.flatMap FixtureResult.lines) ++
      ("-- " ++ s.name ++ ": " ++ countText passed failed ++ "\n\n") ++
      Text.unlines ((r.suites.drop (i + 1)).flatMap SuiteReport.lines ++ [r.lastLine])

/-- What is printed behind a suite are its counts and no others. -/
theorem showsCounts_iff {i : Nat} {s : SuiteReport} (h : r.suites[i]? = some s)
    (passed failed : Nat) :
    r.ShowsCounts i passed failed ↔ passed = s.passedCount ∧ failed = s.failedCount := by
  have hcounts : Text.unlines ["-- " ++ s.name ++ ": " ++ countText s.passedCount s.failedCount,
      ""] = "-- " ++ s.name ++ ": " ++ countText s.passedCount s.failedCount ++ "\n\n" := by
    rw [Text.unlines_cons, Text.unlines_cons, Text.unlines_nil, String.append_assoc]
    rfl
  have hrender : r.render =
      Text.unlines ((r.suites.take i).flatMap SuiteReport.lines ++
        ("== " ++ s.name) :: s.results.flatMap FixtureResult.lines) ++
      ("-- " ++ s.name ++ ": " ++ countText s.passedCount s.failedCount ++ "\n\n") ++
      Text.unlines ((r.suites.drop (i + 1)).flatMap SuiteReport.lines ++ [r.lastLine]) := by
    rw [← hcounts, ← Text.unlines_append, ← Text.unlines_append, render, lines,
      flatMap_eq_of_getElem? h, SuiteReport.lines]
    simp only [List.append_assoc, List.cons_append]
  constructor
  · rintro ⟨s', hs', heq⟩
    obtain rfl := Option.some.inj (h.symm.trans hs')
    -- The front is the same on both sides, so the counts stand at the same place.
    rw [hrender, String.append_left_inj, String.append_right_inj] at heq
    simp only [String.append_assoc, String.append_right_inj] at heq
    obtain ⟨hpassed, hfailed, -⟩ := countText_append_inj heq
    exact ⟨hpassed.symm, hfailed.symm⟩
  · rintro ⟨rfl, rfl⟩
    exact ⟨s, h, hrender⟩

/-! ### The last line -/

/-- What ends in OK ends in a K, whatever is in front. -/
theorem getLast?_append_ok (front : String) : (front ++ "OK").toList.getLast? = some 'K' := by
  rw [String.toList_append, List.getLast?_append]
  rfl

theorem getLast?_append_failed (front : String) :
    (front ++ "FAILED").toList.getLast? = some 'D' := by
  rw [String.toList_append, List.getLast?_append]
  rfl

/-- No line ends in both verdicts. -/
theorem append_ok_ne_append_failed (front front' : String) : front ++ "OK" ≠ front' ++ "FAILED" := by
  intro h
  have hlast := congrArg (·.toList.getLast?) h
  simp only [getLast?_append_ok, getLast?_append_failed] at hlast
  cases hlast

/-- The last line ends with the verdict. -/
theorem exists_lastLine (r : RunReport) :
    ∃ front, r.lastLine = front ++ if r.passed then "OK" else "FAILED" :=
  ⟨_, rfl⟩

/-- The last line of the printed report is the line with the verdict. -/
theorem getLast?_lines_render (r : RunReport) :
    (Text.lines r.render).getLast? = some r.lastLine := by
  refine Text.getLast?_lines_unlines r.isLine_lastLine ?_ _
  obtain ⟨front, hfront⟩ := r.exists_lastLine
  rw [hfront]
  split
  · rw [getLast?_append_ok]
    decide
  · rw [getLast?_append_failed]
    decide

/-- Whether the last line of the printed form ends with a word. -/
def EndsIn (r : RunReport) (word : String) : Prop :=
  ∃ front, (Text.lines r.render).getLast? = some (front ++ word)

/-- The printed report ends in OK exactly if the run passed. -/
theorem endsIn_ok_iff : r.EndsIn "OK" ↔ r.passed = true := by
  obtain ⟨front, hfront⟩ := r.exists_lastLine
  rw [EndsIn, getLast?_lines_render, hfront]
  split
  next h => exact iff_of_true ⟨front, rfl⟩ h
  next h =>
    refine iff_of_false ?_ h
    rintro ⟨front', h'⟩
    exact append_ok_ne_append_failed front' front (Option.some.inj h').symm

/-- The printed report ends in FAILED exactly if the run did not pass. -/
theorem endsIn_failed_iff : r.EndsIn "FAILED" ↔ ¬ r.passed = true := by
  obtain ⟨front, hfront⟩ := r.exists_lastLine
  rw [EndsIn, getLast?_lines_render, hfront]
  split
  next h =>
    refine iff_of_false ?_ (not_not_intro h)
    rintro ⟨front', h'⟩
    exact append_ok_ne_append_failed front front' (Option.some.inj h')
  next h => exact iff_of_true ⟨front, rfl⟩ h

/-- Whether a report says in the last line of its printed form that so many passed and so many
failed in so many suites. -/
def EndsWithCounts (r : RunReport) (passed failed suites : Nat) : Prop :=
  ∃ rest, (Text.lines r.render).getLast? =
    some ("== " ++ countText passed failed ++ " in " ++ toString suites ++ " suite" ++ rest)

/-- The last line begins with the counts. -/
theorem lastLine_eq (r : RunReport) :
    ∃ rest, r.lastLine = "== " ++ countText r.passedCount r.failedCount ++ " in " ++
      toString r.suites.length ++ " suite" ++ rest := by
  have hone : " suite (" = " suite" ++ " (" := rfl
  have hmore : " suites (" = " suite" ++ "s (" := rfl
  unfold lastLine
  split
  · exact ⟨_, by rw [hone, ← String.append_assoc, String.append_assoc, String.append_assoc,
      String.append_assoc]⟩
  · exact ⟨_, by rw [hmore, ← String.append_assoc, String.append_assoc, String.append_assoc,
      String.append_assoc]⟩

/-- What is printed in the last line are the counts of the run and no others. -/
theorem endsWithCounts_iff (r : RunReport) (passed failed suites : Nat) :
    r.EndsWithCounts passed failed suites ↔
      passed = r.passedCount ∧ failed = r.failedCount ∧ suites = r.suites.length := by
  obtain ⟨rest, hline⟩ := r.lastLine_eq
  rw [EndsWithCounts, getLast?_lines_render, hline]
  constructor
  · rintro ⟨rest', h⟩
    have heq := Option.some.inj h
    simp only [String.append_assoc, String.append_right_inj] at heq
    obtain ⟨hpassed, hfailed, hbehind⟩ := countText_append_inj heq
    have hlist := congrArg String.toList ((String.append_right_inj _).1 hbehind)
    simp only [String.toList_append] at hlist
    exact ⟨hpassed.symm, hfailed.symm, (toString_append_inj hlist).1.symm⟩
  · rintro ⟨rfl, rfl, rfl⟩
    exact ⟨rest, rfl⟩

/-! ### All together -/

/-- For every report: whatever says that it passed says the same, the counts of suites and run add
up, and those that are printed and those of the document are these counts. -/
theorem verdicts_agree (r : RunReport) :
    List.TFAE [
      r.exitCode = 0,
      r.passed = true,
      ∀ s ∈ r.suites, s.passed = true,
      r.failedCount = 0,
      r.EndsIn "OK",
      ¬ r.EndsIn "FAILED",
      ∃ d, ReportDocument.parse? r.document = some d ∧ d.passed = true,
      ∃ d, ReportDocument.parse? r.document = some d ∧ d.failed = 0,
      ∀ s ∈ r.suites, ∀ f ∈ s.results, f.outcome = .passed] ∧
    (∀ s ∈ r.suites, s.CountsAddUp) ∧ r.CountsAddUp ∧
    (∀ i s, r.suites[i]? = some s → ∀ passed failed,
      r.ShowsCounts i passed failed ↔ passed = s.passedCount ∧ failed = s.failedCount) ∧
    (∀ passed failed suites, r.EndsWithCounts passed failed suites ↔
      passed = r.passedCount ∧ failed = r.failedCount ∧ suites = r.suites.length) ∧
    ∃ d, ReportDocument.parse? r.document = some d ∧
      d.total = r.total ∧ d.failed = r.failedCount ∧ d.suites = r.suites := by
  have hdocument : ∀ P : ReportDocument → Prop,
      (∃ d, ReportDocument.parse? r.document = some d ∧ P d) ↔
        P ⟨r.passed, r.total, r.failedCount, r.duration.millis, r.suites⟩ := by
    intro P
    simp only [parse?_document, Option.some.injEq, exists_eq_left']
  -- Each of them is compared with the verdict of the run only.
  refine ⟨List.tfae_of_forall (r.passed = true) _ ?_, fun s _ => s.countsAddUp, r.countsAddUp,
    fun i s h => showsCounts_iff h, r.endsWithCounts_iff, (hdocument _).2 ⟨rfl, rfl, rfl⟩⟩
  simp only [List.forall_mem_cons, hdocument]
  exact ⟨exitCode_eq_zero_iff, trivial, List.all_eq_true.symm, failedCount_eq_zero_iff,
    endsIn_ok_iff, endsIn_failed_iff.not_left, trivial, failedCount_eq_zero_iff, passed_iff.symm,
    nofun⟩

/-- A suite with a failure that has no reason, and a name that looks like its counts. -/
def unreasoned : SuiteReport where
  name := "a: 2 passed, 0 failed"
  results :=
    [⟨"a: 2 passed, 0 failed", "1", .passed, .zero, ""⟩,
      ⟨"a: 2 passed, 0 failed", "2", .failed [], .ofMillis 5, "== OK\n"⟩]

/-- That suite behind one without fixtures, whose name breaks the line. -/
def mixed : RunReport := ⟨[⟨"none\n== OK", []⟩, unreasoned], .ofMillis 7⟩

/-- One suite is empty and the other has a failure without a reason: everything says that the run
failed, whatever its names look like. -/
theorem verdicts_agree_mixed :
    mixed.suites[1]? = some unreasoned ∧ unreasoned ∈ mixed.suites ∧
      mixed.ShowsCounts 1 1 1 ∧ ¬ mixed.ShowsCounts 1 2 0 ∧
      mixed.EndsWithCounts 1 1 2 ∧ ¬ mixed.EndsIn "OK" ∧ mixed.exitCode ≠ 0 ∧
      unreasoned.CountsAddUp ∧
      (∃ d, ReportDocument.parse? mixed.document = some d ∧ d.total = 2 ∧ d.failed = 1) ∧
      ¬ ∃ d, ReportDocument.parse? mixed.document = some d ∧ d.passed = true := by
  obtain ⟨hverdicts, hsuites, -, hshown, hlast, d, hd, htotal, hfailed, -⟩ := verdicts_agree mixed
  have hsuite : mixed.suites[1]? = some unreasoned := rfl
  have hmem : unreasoned ∈ mixed.suites := List.mem_of_getElem? hsuite
  have hpassed : ¬ mixed.passed = true := by decide
  have hok : mixed.EndsIn "OK" ↔ mixed.passed = true := hverdicts.out 4 1
  have hexit : mixed.exitCode = 0 ↔ mixed.passed = true := hverdicts.out 0 1
  have hsays := hverdicts.out 6 1
  refine ⟨hsuite, hmem, (hshown 1 _ hsuite 1 1).2 (by decide), ?_, (hlast 1 1 2).2 (by decide),
    mt hok.1 hpassed, mt hexit.1 hpassed, hsuites _ hmem, ⟨d, hd, htotal, hfailed⟩,
    mt hsays.1 hpassed⟩
  exact mt (hshown 1 _ hsuite 2 0).1 (by decide)

end RunReport

end Assay
