import Assay.Proofs.Report.Lines

/-!
# Report — what the printed form says

`RunReport.render_unambiguous`: plain reports with the same printed form have the same suites, and
in each of them the same fixtures with the same verdicts and the same reasons, whatever programs
wrote. The lines that begin like those of suites, fixtures and counts are the report's own.

The text is taken apart from the outside in. The last line goes first; then a suite begins at `==`
and at no other line, a fixture of it at a line that is not indented, and a reason of the fixture at
an indented line without a bar.
-/

namespace Assay

open Text (IsLine isLine_append)

/-! ### Blocks -/

/-- Blocks of a head and a body can be told apart if what is a head can. -/
theorem map_eq_of_blocks {α β γ : Type} {p : β → Bool} {head : α → β} {body : α → List β}
    {v : α → γ} (hhead : ∀ a, p (head a) = true)
    (hbody : ∀ a, ∀ b ∈ body a, p b = false)
    (hview : ∀ a a', head a = head a' → body a = body a' → v a = v a') {as as' : List α}
    (h : (as.flatMap fun a => head a :: body a) = as'.flatMap fun a => head a :: body a) :
    as.map v = as'.map v := by
  -- the body of a block ends at the next head, or with the list
  have hcut : ∀ a (as : List α), List.takeWhile (fun b => !p b)
      (body a ++ as.flatMap fun a => head a :: body a) = body a := by
    intro a as
    have hall : ∀ b ∈ body a, (!p b) = true := fun b hb => by rw [hbody a b hb]; rfl
    rw [List.takeWhile_append_of_pos hall]
    cases as with
    | nil => simp
    | cons a' as => simp [hhead a']
  induction as generalizing as' with
  | nil =>
    cases as' with
    | nil => rfl
    | cons a' as' => cases h
  | cons a as ih =>
    cases as' with
    | nil => cases h
    | cons a' as' =>
      obtain ⟨hhd, htl⟩ := List.cons.inj h
      have hbd : body a = body a' := by rw [← hcut a as, ← hcut a' as']; exact congrArg _ htl
      rw [hbd] at htl
      rw [List.map_cons, List.map_cons, hview a a' hhd hbd, ih (List.append_cancel_left htl)]

/-- What is in front of a last mark is determined by the list. -/
theorem eq_of_append_mark {α : Type} {x : α} {as as' bs bs' : List α} (h : x ∉ bs) (h' : x ∉ bs')
    (heq : as ++ x :: bs = as' ++ x :: bs') : as = as' := by
  obtain ⟨cs, rfl, hcs⟩ | ⟨cs, rfl, hcs⟩ := List.append_eq_append_iff.1 heq
  · cases cs with
    | nil => exact (List.append_nil as).symm
    | cons c cs =>
      obtain ⟨rfl, rfl⟩ := List.cons.inj hcs
      exact absurd (List.mem_append_right _ List.mem_cons_self) h
  · cases cs with
    | nil => exact List.append_nil as'
    | cons c cs =>
      obtain ⟨rfl, rfl⟩ := List.cons.inj hcs
      exact absurd (List.mem_append_right _ List.mem_cons_self) h'

/-! ### How a line begins -/

/-- Whether `line` begins with `mark`. -/
def Text.begins (mark line : String) : Bool := mark.toList.isPrefixOf line.toList

/-- Whether a line begins as those of suites, fixtures and counts do. -/
def isMarked (line : String) : Bool := ["ok", "FAIL", "==", "--"].any (Text.begins · line)

open Text (begins)

/-- A headline begins with the verdict. -/
theorem FixtureResult.headline_eq (f : FixtureResult) :
    ∃ t, f.headline = (if f.passed then "ok  " else "FAIL") ++ t :=
  ⟨"  " ++ f.identifier ++ " (" ++ f.duration.twoPlaces ++ ")", by
    simp only [headline, String.append_assoc]⟩

/-- No indented line is marked. -/
theorem isMarked_indented (t : String) : isMarked ("      " ++ t) = false := by
  simp [isMarked, begins, List.isPrefixOf]

/-- Every headline is marked. -/
theorem isMarked_headline (f : FixtureResult) : isMarked f.headline = true := by
  obtain ⟨t, ht⟩ := f.headline_eq
  rw [ht]
  split <;> simp [isMarked, begins, List.isPrefixOf]

/-- Whether a line below a fixture's first one is that of a reason. -/
def isReason (line : String) : Bool :=
  !begins "      | " line && !begins "      stderr:" line

/-- A line of captured text is not taken for a reason. -/
theorem isReason_barred (t : String) : isReason ("      | " ++ t) = false := by
  simp [isReason, begins, List.isPrefixOf]

/-- The words that a reason may begin with. -/
def Reason.openings : List String :=
  ["setup failed", "invalid expectation", "translate", "codegen", "link", "program",
   "exit code mismatch", "stdout mismatch", "run aborted", "scratch cleanup failed"]

/-- The summary of a reason begins with the opening of its kind. -/
theorem Reason.exists_opening (why : Reason) : ∃ w ∈ openings, ∃ t, why.summary = w ++ t := by
  have hstage : ∀ s : Stage, s.name ∈ openings := by
    intro s
    cases s <;> simp [openings, Stage.name]
  have hwhole : ∀ w ∈ openings, ∃ v ∈ openings, ∃ t, w = v ++ t := fun w hw =>
    ⟨w, hw, "", String.append_empty.symm⟩
  cases why with
  | build stage exit output =>
    cases exit with
    | none => exact ⟨_, hstage stage, _, rfl⟩
    | some e =>
      refine ⟨_, hstage stage, " stage failed (" ++ e.describe ++ ")", ?_⟩
      rw [← String.append_assoc, ← String.append_assoc]
      rfl
  | buildTimedOut stage d =>
    refine ⟨_, hstage stage, " stage timed out after " ++ d.shortest, ?_⟩
    rw [← String.append_assoc]
    rfl
  | timedOut d => exact ⟨"program", by simp [openings], " timed out after " ++ d.shortest, rfl⟩
  | launch => exact ⟨"program", by simp [openings], " could not start", rfl⟩
  | setup => exact hwhole "setup failed" (by simp [openings])
  | invalidExpectation => exact hwhole "invalid expectation" (by simp [openings])
  | exitMismatch => exact hwhole "exit code mismatch" (by simp [openings])
  | stdoutMismatch => exact hwhole "stdout mismatch" (by simp [openings])
  | aborted => exact hwhole "run aborted" (by simp [openings])
  | cleanup => exact hwhole "scratch cleanup failed" (by simp [openings])

/-- The line of a reason is taken for one. -/
theorem isReason_display (why : Reason) : isReason ("      " ++ why.display) = true := by
  have hopening : ∀ w ∈ Reason.openings, ∀ t, isReason ("      " ++ (w ++ t)) = true := by
    simp [Reason.openings, isReason, begins, List.isPrefixOf]
  obtain ⟨w, hw, t, ht⟩ := why.exists_opening
  unfold Reason.display Reason.displayWith
  rw [ht]
  split
  · rw [String.append_assoc, String.append_assoc]
    exact hopening w hw _
  · exact hopening w hw t

/-! ### Marked lines -/

/-- The lines that begin and end a suite are marked. -/
theorem isMarked_rule {m : String} (hm : m ∈ ["== ", "-- "]) (t : String) :
    isMarked (m ++ t) = true := by
  revert m
  simp [isMarked, begins]

/-- Of the lines of a fixture the first one is marked. -/
theorem FixtureResult.filter_lines (f : FixtureResult) :
    f.lines.filter isMarked = [f.headline] := by
  have hbody : f.body.filter isMarked = [] := List.filter_eq_nil_iff.2 fun l hl => by
    obtain ⟨t, rfl⟩ := f.indented_body l hl
    rw [isMarked_indented]
    exact Bool.false_ne_true
  rw [f.lines_eq, List.filter_cons_of_pos (isMarked_headline f), hbody]

/-- The marked lines of a suite: its name, its fixtures and how they fared, and its counts. -/
def SuiteReport.headlines (s : SuiteReport) : List String :=
  ("== " ++ s.name) :: s.results.map FixtureResult.headline ++
    ["-- " ++ s.name ++ ": " ++ countText s.passedCount s.failedCount]

/-- The marked lines of a suite are its headlines, whatever was captured. -/
theorem SuiteReport.filter_lines (s : SuiteReport) : s.lines.filter isMarked = s.headlines := by
  have hresults : (s.results.flatMap FixtureResult.lines).filter isMarked =
      s.results.map FixtureResult.headline := by
    rw [List.filter_flatMap, List.map_eq_flatMap]
    exact congrArg (s.results.flatMap ·) (funext FixtureResult.filter_lines)
  have hname : isMarked ("== " ++ s.name) = true := isMarked_rule (by simp) _
  have hcounts : ∀ t, isMarked ("-- " ++ t) = true := isMarked_rule (by simp)
  have hempty : isMarked "" = false := by decide
  simp only [lines, headlines, List.filter_append, hresults, List.cons_append, List.filter_cons,
    hname, hcounts, hempty, String.append_assoc, if_true, List.filter_nil, Bool.false_eq_true,
    if_false]

/-- The marked lines of a report: those of its suites, and the counts of all at the end. -/
def RunReport.headlines (r : RunReport) : List String :=
  r.suites.flatMap SuiteReport.headlines ++ [r.lastLine]

/-- The marked lines of a report are its headlines, whatever was captured. -/
theorem RunReport.filter_lines (r : RunReport) : r.lines.filter isMarked = r.headlines := by
  have hlast : isMarked r.lastLine = true := by
    simp only [lastLine, String.append_assoc, isMarked_rule, List.mem_cons, true_or]
  rw [lines, List.filter_append, List.filter_flatMap, List.filter_cons_of_pos hlast,
    List.filter_nil, headlines]
  exact congrArg (r.suites.flatMap · ++ [r.lastLine]) (funext SuiteReport.filter_lines)

/-! ### Taking the text apart -/

/-- What the printed form of a result shows, captured text apart: which fixture it is, whether it
passed, and what each reason says. -/
def FixtureResult.shown (f : FixtureResult) : String × Bool × List String :=
  (f.identifier, f.passed, f.outcome.reasons.map Reason.display)

/-- What the printed form of a suite shows. -/
def SuiteReport.shown (s : SuiteReport) : String × List (String × Bool × List String) :=
  (s.name, s.results.map FixtureResult.shown)

/-- What the printed form of a report shows. -/
def RunReport.shown (r : RunReport) : List (String × List (String × Bool × List String)) :=
  r.suites.map SuiteReport.shown

namespace FixtureResult

/-- The identifier and the verdict can be read off the first line: what stands behind the last
blank is a span of time. -/
theorem headline_inj {f f' : FixtureResult} (h : f.headline = f'.headline) :
    f.identifier = f'.identifier ∧ f.passed = f'.passed := by
  have hlist := congrArg String.toList h
  have hopen : " (".toList = [' ', '('] := rfl
  have hclose : ")".toList = [')'] := rfl
  simp only [headline, String.append_assoc, String.toList_append, hopen, hclose,
    List.cons_append, List.nil_append] at hlist
  have hlen : ∀ b : Bool, (if b then "ok  " else "FAIL").toList.length = 4 := by decide
  obtain ⟨hverdict, hrest⟩ := List.append_inj hlist ((hlen _).trans (hlen _).symm)
  refine ⟨?_, ?_⟩
  · have hword : ∀ d : Duration, ' ' ∉ '(' :: (d.twoPlaces.toList ++ [')']) := by
      intro d
      simp [d.not_mem_twoPlaces (c := ' ') rfl]
    have hid := List.append_cancel_left hrest
    exact String.toList_injective (eq_of_append_mark (hword _) (hword _) hid)
  · revert hverdict
    cases f.passed <;> cases f'.passed <;> decide

/-- The lines of reasons among those below the first one. -/
theorem filter_body (f : FixtureResult) :
    f.body.filter isReason = f.outcome.reasons.map ("      " ++ ·.display) := by
  have hcaptured : ∀ text, (captured text).filter isReason = [] := by
    intro text
    refine List.filter_eq_nil_iff.2 fun l hl => ?_
    obtain ⟨line, -, rfl⟩ := List.mem_map.1 hl
    simp only [isReason_barred, Bool.false_eq_true, not_false_eq_true]
  have hreasons : ∀ rs : List Reason,
      (rs.flatMap Reason.lines).filter isReason = rs.map ("      " ++ ·.display) := by
    intro rs
    induction rs with
    | nil => rfl
    | cons why rs ih =>
      obtain ⟨text, htext⟩ := why.below_eq_captured
      rw [List.flatMap_cons, List.filter_append, ih, Reason.lines_eq, htext,
        List.filter_cons_of_pos (isReason_display why), hcaptured]
      rfl
  unfold body
  cases f.outcome with
  | passed => rfl
  | failed reasons =>
    simp only [List.filter_append, hreasons, Outcome.reasons]
    split
    next => exact List.append_nil _
    next =>
      have hstderr : isReason "      stderr:" = false := by decide
      rw [List.filter_cons_of_neg (by rw [hstderr]; exact Bool.false_ne_true), hcaptured,
        List.append_nil]

/-- The lines of a fixture tell all that is shown of it. -/
theorem shown_eq {f f' : FixtureResult} (hhead : f.headline = f'.headline)
    (hbody : f.body = f'.body) : f.shown = f'.shown := by
  obtain ⟨hid, hpassed⟩ := headline_inj hhead
  have hlines : f.outcome.reasons.map ("      " ++ ·.display) =
      f'.outcome.reasons.map ("      " ++ ·.display) := by
    rw [← filter_body, ← filter_body, hbody]
  have hindent : Function.Injective ("      " ++ · : String → String) := fun s t h =>
    (String.append_right_inj _).1 h
  have hsays : f.outcome.reasons.map Reason.display = f'.outcome.reasons.map Reason.display := by
    refine List.map_injective_iff.2 hindent ?_
    rw [List.map_map, List.map_map]
    exact hlines
  rw [shown, shown, hid, hpassed, hsays]

/-- No headline begins with a blank. -/
theorem begins_blank_headline (f : FixtureResult) : begins " " f.headline = false := by
  obtain ⟨t, ht⟩ := f.headline_eq
  rw [ht]
  split <;> simp [begins, List.isPrefixOf]

/-- Fixtures can be told apart by where the text is not indented. -/
theorem map_shown_eq {fs fs' : List FixtureResult}
    (h : fs.flatMap lines = fs'.flatMap lines) : fs.map shown = fs'.map shown := by
  have hlines : lines = fun f : FixtureResult => f.headline :: f.body := funext lines_eq
  rw [hlines] at h
  refine map_eq_of_blocks (p := fun l => !begins " " l) (fun f => ?_) (fun f l hl => ?_)
    (fun f f' => shown_eq) h
  · rw [f.begins_blank_headline]
    rfl
  · obtain ⟨t, rfl⟩ := f.indented_body l hl
    simp [begins, List.isPrefixOf]

end FixtureResult

namespace SuiteReport

/-- The lines of a suite below its first one. -/
def body (s : SuiteReport) : List String :=
  s.results.flatMap FixtureResult.lines ++
    ["-- " ++ s.name ++ ": " ++ countText s.passedCount s.failedCount, ""]

theorem lines_eq (s : SuiteReport) : s.lines = ("== " ++ s.name) :: s.body := rfl

/-- The lines of a suite tell all that is shown of it. -/
theorem shown_eq {s s' : SuiteReport} (hhead : "== " ++ s.name = "== " ++ s'.name)
    (hbody : s.body = s'.body) : s.shown = s'.shown := by
  have hname : s.name = s'.name := (String.append_right_inj _).1 hhead
  have hresults := FixtureResult.map_shown_eq
    (List.append_inj_left' hbody (by simp only [List.length_cons]))
  rw [shown, shown, hname, hresults]

/-- Below its first line a suite has no other that begins as a suite's. -/
theorem begins_body (s : SuiteReport) : ∀ l ∈ s.body, begins "==" l = false := by
  intro l hl
  obtain hl | hl := List.mem_append.1 hl
  · obtain ⟨f, -, hl⟩ := List.mem_flatMap.1 hl
    rw [FixtureResult.lines_eq] at hl
    obtain rfl | hl := List.mem_cons.1 hl
    · obtain ⟨t, ht⟩ := f.headline_eq
      rw [ht]
      split <;> simp [begins, List.isPrefixOf]
    · obtain ⟨t, rfl⟩ := f.indented_body l hl
      simp [begins, List.isPrefixOf]
  · obtain rfl | hl := List.mem_cons.1 hl
    · simp [begins, List.isPrefixOf]
    · rw [List.mem_singleton.1 hl]
      decide

end SuiteReport

namespace RunReport

/-- The lines of a report tell all that is shown of it. -/
theorem shown_eq {r r' : RunReport} (h : r.lines = r'.lines) : r.shown = r'.shown := by
  have hsuites : r.suites.flatMap SuiteReport.lines = r'.suites.flatMap SuiteReport.lines :=
    List.append_inj_left' h (List.length_singleton.trans List.length_singleton.symm)
  have hlines : SuiteReport.lines = fun s : SuiteReport => ("== " ++ s.name) :: s.body :=
    funext SuiteReport.lines_eq
  have hname : ∀ s : SuiteReport, begins "==" ("== " ++ s.name) = true := fun s => by
    simp [begins, List.isPrefixOf]
  rw [hlines] at hsuites
  exact map_eq_of_blocks (p := begins "==") (v := SuiteReport.shown) hname
    SuiteReport.begins_body (fun s s' => SuiteReport.shown_eq) hsuites

/-- The printed form of a plain report is unambiguous. Another one with the same form shows the same
suites, fixtures, verdicts and reasons; and the lines that begin with a mark are those of suites,
fixtures and counts, whatever captured text looks like. -/
theorem render_unambiguous {r : RunReport} (h : r.IsPlain) :
    (∀ r' : RunReport, r'.IsPlain → r'.render = r.render → r'.shown = r.shown) ∧
      (Text.feedLines r.render).filter isMarked = r.headlines := by
  refine ⟨fun r' h' heq => ?_, ?_⟩
  · exact shown_eq (Text.unlines_inj h'.isLine_lines h.isLine_lines heq)
  · rw [h.feedLines_render, filter_lines]

/-- A report with one failure. What the compiler wrote looks like lines of a report. -/
def imitating (ending : String) : RunReport where
  suites := [{
    name := "a"
    results := [{
      suite := "a"
      identifier := "a/001 (b)"
      outcome := .failed [.build .translate (some (.code 1))
        ("ok    a/002 (1.00ms)" ++ ending ++ "-- a: 9 passed, 0 failed"), .cleanup "a/001 (1.00ns)"]
      duration := .ofMillis 5
      diagnostics := "== b" ++ ending }] }]
  duration := .ofMillis 7

/-- The names and messages of a report that imitates others are still one line each. -/
theorem isPlain_imitating (ending : String) : (imitating ending).IsPlain where
  names := List.forall_mem_singleton.2 (by decide : IsLine "a")
  identifiers := List.forall_mem_singleton.2 (by decide : IsLine "a/001 (b)")
  messages := by
    refine List.forall_mem_singleton.2 (List.forall_mem_cons.2 ⟨?_, ?_⟩)
    · intro m hm
      cases hm
    · intro why hwhy m hm
      rw [List.mem_singleton.1 hwhy] at hm
      rw [← Option.some.inj hm]
      decide

/-- Two different reports that are printed alike. -/
theorem render_unambiguous_imitating :
    (imitating "\n").IsPlain ∧ (imitating "\r\n").IsPlain ∧ imitating "\r\n" ≠ imitating "\n" ∧
      (imitating "\r\n").render = (imitating "\n").render ∧
      (imitating "\r\n").shown = (imitating "\n").shown ∧
      (Text.feedLines (imitating "\n").render).filter isMarked =
        ["== a", "FAIL  a/001 (b) (5.00ms)", "-- a: 0 passed, 1 failed",
         "== 0 passed, 1 failed in 1 suite (7.00ms): FAILED"] := by
  have hsame : (imitating "\r\n").render = (imitating "\n").render := by decide +kernel
  have h := render_unambiguous (isPlain_imitating "\n")
  refine ⟨isPlain_imitating _, isPlain_imitating _, by decide +kernel, hsame, ?_, h.2.trans ?_⟩
  · exact h.1 _ (isPlain_imitating _) hsame
  · decide +kernel

end RunReport

end Assay
