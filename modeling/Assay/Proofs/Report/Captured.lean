import Assay.Build.Toolchain
import Assay.Proofs.Report.Printed

/-!
# Report — what a tool said is printed in full

A build stage that ends without success is reported with both streams of its program. Put together
they have exactly their own lines, those of standard output first (`Output.feedLines_combined`): the
line feed between them is there if it has to be, and adds no line.

`RunReport.captured_lines_complete`: below the line of the reason, behind a bar each, stand these
lines and no others, wherever the reason is in a report. A carriage return at the end of a line is
not printed.
-/

namespace Assay

open Text (begins feedLines)

/-! ### Two streams in one text -/

/-- The lines of both streams together are those of the one and then those of the other. -/
theorem Output.feedLines_combined (o : Output) :
    feedLines o.combined = feedLines o.stdoutText ++ feedLines o.stderrText := by
  unfold combined
  dsimp only
  split
  next hruns =>
    simp only [Bool.and_eq_true, Bool.not_eq_true', bne_iff_ne] at hruns
    obtain ⟨⟨hsome, hlast⟩, -⟩ := hruns
    have hne : o.stdoutText.toList ≠ [] := by
      intro h
      rw [String.toList_injective (h.trans String.toList_empty.symm)] at hsome
      cases hsome
    have hended : (o.stdoutText ++ "\n").toList.getLast? = some '\n' := by
      rw [String.toList_append]
      exact List.getLast?_concat
    rw [Text.feedLines_append (.inr hended), Text.feedLines_feed hne hlast]
  next hruns =>
    rw [String.append_empty]
    by_cases hfront : o.stdoutText.toList = [] ∨ o.stdoutText.toList.getLast? = some '\n'
    · exact Text.feedLines_append hfront _
    · -- a line under way is not ended only if nothing follows
      obtain ⟨hne, hlast⟩ := not_or.1 hfront
      have hsome : o.stdoutText.isEmpty = false := by
        rw [Bool.eq_false_iff]
        intro h
        exact hne (by rw [String.isEmpty_iff.1 h]; rfl)
      have hnone : o.stderr = [] := by
        simpa [hsome, hlast] using hruns
      rw [stderrText, hnone, show Text.Utf8.decodeLossy [] = "" from rfl, String.append_empty]
      exact (List.append_nil _).symm

/-! ### Below a reason -/

/-- Whether the first of some lines, if there is one, has no bar. -/
def NoBar (ls : List String) : Prop := ∀ l, ls.head? = some l → begins "      | " l = false

theorem noBar_nil : NoBar [] := by
  intro l h
  cases h

theorem noBar_append {as bs : List String} (has : NoBar as) (hbs : NoBar bs) :
    NoBar (as ++ bs) := by
  intro l h
  rw [List.head?_append] at h
  cases as with
  | nil => exact hbs l h
  | cons a as => exact has l h

/-- Behind an element of a list comes the rest, also when each is written out. -/
theorem flatMap_eq_of_getElem? {α β : Type} {as : List α} {i : Nat} {a : α} (h : as[i]? = some a)
    (f : α → List β) :
    as.flatMap f = (as.take i).flatMap f ++ (f a ++ (as.drop (i + 1)).flatMap f) := by
  obtain ⟨hi, rfl⟩ := List.getElem?_eq_some_iff.1 h
  rw [← List.flatMap_cons, ← List.drop_eq_getElem_cons hi, ← List.flatMap_append,
    List.take_append_drop]

/-- A line without a bar in front leaves none. -/
theorem noBar_cons {l : String} (h : begins "      | " l = false) (ls : List String) :
    NoBar (l :: ls) := by
  intro x hx
  rwa [← Option.some.inj hx]

/-- No reason begins with a bar, so what is captured ends before the next. -/
theorem Reason.noBar_lines (whys : List Reason) : NoBar (whys.flatMap Reason.lines) := by
  cases whys with
  | nil => exact noBar_nil
  | cons why whys =>
    rw [List.flatMap_cons, why.lines_eq]
    have hreason := isReason_display why
    simp only [isReason, Bool.and_eq_true, Bool.not_eq_true'] at hreason
    exact noBar_cons hreason.1 _

/-- No fixture begins with a bar. -/
theorem FixtureResult.noBar_lines (fs : List FixtureResult) :
    NoBar (fs.flatMap FixtureResult.lines) := by
  cases fs with
  | nil => exact noBar_nil
  | cons f fs =>
    rw [List.flatMap_cons, f.lines_eq]
    obtain ⟨t, ht⟩ := f.headline_eq
    refine noBar_cons ?_ _
    rw [ht]
    split <;> simp [begins, List.isPrefixOf]

/-- The lines of a fixture around those of one of its reasons. -/
theorem FixtureResult.lines_at {f : FixtureResult} {k : Nat} {why : Reason}
    (h : f.outcome.reasons[k]? = some why) :
    ∃ after, NoBar after ∧ f.lines = f.headline ::
      ((f.outcome.reasons.take k).flatMap Reason.lines ++ (why.lines ++ after)) := by
  rw [f.lines_eq]
  unfold body
  cases hout : f.outcome with
  | passed =>
    rw [hout] at h
    cases h
  | failed reasons =>
    rw [hout, Outcome.reasons] at h
    refine ⟨(reasons.drop (k + 1)).flatMap Reason.lines ++
      if f.diagnostics.isEmpty then [] else "      stderr:" :: captured f.diagnostics, ?_, ?_⟩
    · refine noBar_append (Reason.noBar_lines _) ?_
      split
      · exact noBar_nil
      · exact noBar_cons (by decide) _
    · simp only [flatMap_eq_of_getElem? h, Outcome.reasons, List.append_assoc]

/-- The lines of a suite around those of one of its fixtures. -/
theorem SuiteReport.lines_at {s : SuiteReport} {j : Nat} {f : FixtureResult}
    (h : s.results[j]? = some f) :
    ∃ after, NoBar after ∧ s.lines = ("== " ++ s.name) ::
      ((s.results.take j).flatMap FixtureResult.lines ++ (f.lines ++ after)) := by
  refine ⟨(s.results.drop (j + 1)).flatMap FixtureResult.lines ++
    ["-- " ++ s.name ++ ": " ++ countText s.passedCount s.failedCount, ""], ?_, ?_⟩
  · refine noBar_append (FixtureResult.noBar_lines _) (noBar_cons ?_ _)
    simp [begins, List.isPrefixOf]
  · rw [s.lines_eq, body, flatMap_eq_of_getElem? h, List.append_assoc, List.append_assoc]

namespace RunReport

/-- The lines of a report around those of one of its suites. -/
theorem lines_at {r : RunReport} {i : Nat} {s : SuiteReport} (h : r.suites[i]? = some s) :
    ∃ after, NoBar after ∧
      r.lines = (r.suites.take i).flatMap SuiteReport.lines ++ (s.lines ++ after) := by
  refine ⟨(r.suites.drop (i + 1)).flatMap SuiteReport.lines ++ [r.lastLine], ?_, ?_⟩
  · refine noBar_append ?_ (noBar_cons ?_ _)
    · cases r.suites.drop (i + 1) with
      | nil => exact noBar_nil
      | cons s' ss =>
        rw [List.flatMap_cons, s'.lines_eq]
        exact noBar_cons (by simp [begins, List.isPrefixOf]) _
    · simp [lastLine, begins, List.isPrefixOf]
  · rw [lines, flatMap_eq_of_getElem? h, List.append_assoc, List.append_assoc]

/-- What a stage's program wrote before it ended without success is reported, and stands in the
printed form behind bars below the reason's line, with nothing else behind bars there: the lines
of its standard output, then those of its standard error, each up to a carriage return at the end
of it. -/
theorem captured_lines_complete (stage : Stage) {o : Output} (ho : o.exit.isSuccess = false) :
    ∃ why, Build.stageFailure stage (.ok (.completed o)) = some why ∧
      ∀ (r : RunReport) (s : SuiteReport) (f : FixtureResult) (i j k : Nat),
        r.suites[i]? = some s → s.results[j]? = some f → f.outcome.reasons[k]? = some why →
        ∃ printed after : List String,
          r.render = Text.unlines
            ((r.suites.take i).flatMap SuiteReport.lines ++ ("== " ++ s.name) ::
              ((s.results.take j).flatMap FixtureResult.lines ++ f.headline ::
                ((f.outcome.reasons.take k).flatMap Reason.lines ++ ("      " ++ why.display) ::
                  (printed.map ("      | " ++ ·) ++ after)))) ∧
          NoBar after ∧
          List.Forall₂ (fun line row => row = line ∨ row = line ++ "\r") printed
            (feedLines o.stdoutText ++ feedLines o.stderrText) := by
  refine ⟨.build stage (some o.exit) o.combined, ?_, ?_⟩
  · rw [Build.stageFailure, ho]
    rfl
  · intro r s f i j k hs hf hwhy
    obtain ⟨above, habove, hr⟩ := lines_at hs
    obtain ⟨around, haround, hs'⟩ := SuiteReport.lines_at hf
    obtain ⟨behind, hbehind, hf'⟩ := FixtureResult.lines_at hwhy
    refine ⟨Text.lines o.combined, behind ++ (around ++ above), ?_,
      noBar_append hbehind (noBar_append haround habove), ?_⟩
    · rw [render, hr, hs', hf', Reason.lines_eq, Reason.below, captured]
      simp only [List.append_assoc, List.cons_append]
    · rw [← Output.feedLines_combined]
      exact Text.lines_feedLines o.combined

/-- Neither stream is plain: standard output does not end its last line and is no text in it, and
standard error has an empty line at its end. -/
def noisy : Output := ⟨.code 1, [0x61, 0x0A, 0x0A, 0x62, 0xFF], [0x63, 0x0D, 0x0A, 0x0A]⟩

/-- A report on one fixture, with two reasons why it failed. -/
def failing (why : Reason) : RunReport :=
  ⟨[⟨"a", [⟨"a", "a/1", .failed [why, .cleanup "m"], .ofMillis 5, "    | d"⟩]⟩], .ofMillis 7⟩

/-- Output that is no text in part, does not end its last line and has empty ones is printed in
full. -/
theorem captured_lines_complete_noisy :
    noisy.exit.isSuccess = false ∧
      ∃ why, Build.stageFailure .codegen (.ok (.completed noisy)) = some why ∧
        ∃ printed after : List String,
          (failing why).render = Text.unlines ("== a" :: "FAIL  a/1 (5.00ms)" ::
            "      codegen stage failed (exit code 1)" ::
              (printed.map ("      | " ++ ·) ++ after)) ∧
          NoBar after ∧
          List.Forall₂ (fun line row => row = line ∨ row = line ++ "\r") printed
            ["a", "", "b\uFFFD", "c\r", ""] := by
  obtain ⟨why, hwhy, hall⟩ := captured_lines_complete .codegen (o := noisy) (by decide)
  refine ⟨by decide, why, hwhy, ?_⟩
  obtain ⟨printed, after, hrender, hafter, hlines⟩ := hall (failing why) _ _ 0 0 0 rfl rfl rfl
  refine ⟨printed, after, hrender.trans ?_, hafter, ?_⟩
  · obtain rfl := Option.some.inj hwhy
    have hhead : FixtureResult.headline ⟨"a", "a/1", .failed [.build .codegen (some (.code 1))
        noisy.combined, .cleanup "m"], .ofMillis 5, "    | d"⟩ = "FAIL  a/1 (5.00ms)" := by
      decide +kernel
    have hsays : "      " ++ (Reason.build .codegen (some noisy.exit) noisy.combined).display =
        "      codegen stage failed (exit code 1)" := by decide +kernel
    rw [← hhead, ← hsays]
    rfl
  · have hrows : feedLines noisy.stdoutText ++ feedLines noisy.stderrText =
        ["a", "", "b\uFFFD", "c\r", ""] := by decide +kernel
    rwa [hrows] at hlines

end RunReport

end Assay
