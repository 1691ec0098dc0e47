import Assay.Proofs.Text.Quoted
import Assay.Report.Text

/-!
# Report — every line is one line

A report is printed line by line. If no name and no message has a line feed in it, none of these
lines has one (`RunReport.isLine_lines`): numbers and spans of time have none, quoted texts have it
escaped, and captured texts are cut at it.

A fixture's lines are one that begins with `ok` or `FAIL` and, if it failed, indented ones
(`FixtureResult.lines_eq`, `FixtureResult.indented_body`).
-/

namespace Assay

open Text (IsLine isLine_append)

/-! ### Numbers and spans of time -/

/-- A number is written with digits alone. -/
theorem not_mem_toString_nat {c : Char} (hc : c.isDigit = false) (n : Nat) :
    c ∉ (toString n).toList := by
  rw [Nat.toString_eq_ofList_toDigits, String.toList_ofList]
  intro h
  have hdigit : c.isDigit = true := Nat.isDigit_of_mem_toDigits (by decide) (by decide) h
  rw [hc] at hdigit
  cases hdigit

@[simp] theorem isLine_toString_nat (n : Nat) : IsLine (toString n) :=
  not_mem_toString_nat rfl n

/-- An integer has no line feed in it. -/
@[simp] theorem isLine_toString_int (n : Int) : IsLine (toString n) := by
  cases n with
  | ofNat n => exact isLine_toString_nat n
  | negSucc n => exact isLine_append.2 ⟨by decide, isLine_toString_nat (n + 1)⟩

namespace Duration

/-- A blank is no digit. -/
theorem not_isDigit_of_isWhitespace {c : Char} (hc : c.isWhitespace = true) :
    c.isDigit = false := by
  simp only [Char.isWhitespace, Bool.or_eq_true, decide_eq_true_eq] at hc
  obtain ((rfl | rfl) | rfl) | rfl := hc <;> rfl

/-- A number filled up with zeros is written with digits alone. -/
theorem not_mem_padded {c : Char} (hc : c.isDigit = false) (width n : Nat) :
    c ∉ padded width n := by
  intro h
  obtain h | h := List.mem_append.1 h
  · rw [List.eq_of_mem_replicate h] at hc
    cases hc
  · have hdigit : c.isDigit = true := Nat.isDigit_of_mem_toDigits (by decide) (by decide) h
    rw [hc] at hdigit
    cases hdigit

/-- There are four units. -/
theorem unit_scaled (d : Duration) :
    d.scaled.unit.toList ∈ [['s'], ['m', 's'], ['µ', 's'], ['n', 's']] := by
  unfold scaled
  split_ifs <;> simp

/-- No unit has a blank in it. -/
theorem not_mem_unit {c : Char} (hc : c.isWhitespace = true) (d : Duration) :
    c ∉ d.scaled.unit.toList := by
  have hunits : ∀ u ∈ [['s'], ['m', 's'], ['µ', 's'], ['n', 's']],
      (u.all fun x => !x.isWhitespace) = true := by decide
  intro h
  have hno := List.all_eq_true.1 (hunits _ d.unit_scaled) c h
  rw [hc] at hno
  cases hno

/-- The text of a span of time is one word. -/
theorem not_mem_twoPlaces {c : Char} (hc : c.isWhitespace = true) (d : Duration) :
    c ∉ d.twoPlaces.toList := by
  have hdigit := not_isDigit_of_isWhitespace hc
  have hpoint : c ∉ ".".toList := by
    intro h
    rw [List.mem_singleton.1 h] at hc
    cases hc
  simp only [twoPlaces, Scaled.twoPlaces, String.toList_append, String.toList_ofList,
    List.mem_append, not_or]
  exact ⟨⟨⟨not_mem_toString_nat hdigit _, hpoint⟩, not_mem_padded hdigit 2 _⟩, not_mem_unit hc d⟩

/-- A span of time with two decimals has no line feed in it. -/
theorem isLine_twoPlaces (d : Duration) : IsLine d.twoPlaces :=
  not_mem_twoPlaces rfl d

/-- A span of time with all its decimals has no line feed in it. -/
theorem isLine_shortest (d : Duration) : IsLine d.shortest := by
  have htrimmed : ∀ w n, '\n' ∉ trimZeros (padded w n) := by
    intro w n h
    have hmem := (List.dropWhile_sublist _).subset (List.mem_reverse.1 h)
    exact not_mem_padded rfl w n (List.mem_reverse.1 hmem)
  have hfraction : ∀ ds : List Char, '\n' ∉ ds →
      IsLine (if ds.isEmpty then "" else "." ++ String.ofList ds) := by
    intro ds hds
    split
    · decide
    · refine isLine_append.2 ⟨by decide, ?_⟩
      rwa [IsLine, String.toList_ofList]
  refine isLine_append.2 ⟨isLine_append.2 ⟨isLine_toString_nat _, hfraction _ ?_⟩, ?_⟩
  · split
    · exact List.not_mem_nil
    · exact htrimmed _ _
  · exact not_mem_unit (c := '\n') rfl d

end Duration

/-! ### What a reason says -/

/-- The description of an exit is one line. -/
theorem Exit.isLine_describe (e : Exit) : IsLine e.describe := by
  cases e with
  | code n => exact isLine_append.2 ⟨by decide, isLine_toString_int n⟩
  | signal n => exact isLine_append.2 ⟨by decide, isLine_toString_int n⟩
  | unknown => decide

namespace Reason

/-- The message that a reason was made with, shown as it is. -/
def message? : Reason → Option String
  | .setup m              => some m
  | .invalidExpectation m => some m
  | .launch m             => some m
  | .aborted m            => some m
  | .cleanup m            => some m
  | _                     => none

/-- A summary is one line, whatever messages and texts there are. -/
theorem isLine_summary (r : Reason) : IsLine r.summary := by
  have hstage : ∀ s : Stage, IsLine s.name := by
    intro s
    cases s <;> decide
  cases r with
  | build stage exit output =>
    cases exit with
    | none => exact isLine_append.2 ⟨hstage stage, by decide⟩
    | some e =>
      have hfront := isLine_append.2 ⟨hstage stage, (by decide : IsLine " stage failed (")⟩
      exact isLine_append.2 ⟨isLine_append.2 ⟨hfront, e.isLine_describe⟩, by decide⟩
  | buildTimedOut stage d =>
    have hfront := isLine_append.2 ⟨hstage stage, (by decide : IsLine " stage timed out after ")⟩
    exact isLine_append.2 ⟨hfront, d.isLine_shortest⟩
  | timedOut d => exact isLine_append.2 ⟨by decide, d.isLine_shortest⟩
  | setup => exact (by decide : IsLine "setup failed")
  | invalidExpectation => exact (by decide : IsLine "invalid expectation")
  | launch => exact (by decide : IsLine "program could not start")
  | exitMismatch => exact (by decide : IsLine "exit code mismatch")
  | stdoutMismatch => exact (by decide : IsLine "stdout mismatch")
  | aborted => exact (by decide : IsLine "run aborted")
  | cleanup => exact (by decide : IsLine "scratch cleanup failed")

/-- The detail of a reason is one line if its message is. -/
theorem isLine_detail {r : Reason} (h : ∀ m, r.message? = some m → IsLine m)
    (hidden : Char → Bool) : ∀ d, r.detail hidden = some d → IsLine d := by
  intro d hd
  cases r with
  | exitMismatch expected actual =>
    obtain rfl := Option.some.inj hd
    simp only [isLine_append, isLine_toString_int, actual.isLine_describe, and_true]
    decide
  | stdoutMismatch expected actual =>
    obtain rfl := Option.some.inj hd
    simp only [isLine_append, Text.isLine_quote, and_true]
    decide
  | build => cases hd
  | buildTimedOut => cases hd
  | timedOut => cases hd
  | _ => exact h d hd

/-- A reason is shown in one line if its message is one. -/
theorem isLine_display {r : Reason} (h : ∀ m, r.message? = some m → IsLine m) :
    IsLine r.display := by
  unfold display displayWith
  split
  next d hd =>
    refine isLine_append.2 ⟨isLine_append.2 ⟨r.isLine_summary, by decide⟩, ?_⟩
    exact isLine_detail h _ d hd
  next => exact r.isLine_summary

end Reason

/-- Captured text is cut at its line feeds. -/
theorem isLine_captured (text : String) : ∀ l ∈ captured text, IsLine l := by
  intro l hl
  obtain ⟨line, hline, rfl⟩ := List.mem_map.1 hl
  exact isLine_append.2 ⟨by decide, Text.isLine_lines text line hline⟩

namespace Reason

/-- The lines below what a reason says. -/
def below : Reason → List String
  | .build _ _ output => captured output
  | _                 => []

/-- A reason is printed as one line and, below it, what was captured. -/
theorem lines_eq (r : Reason) : r.lines = ("      " ++ r.display) :: r.below := by
  cases r <;> rfl

/-- All that stands below a reason is captured text. -/
theorem below_eq_captured (r : Reason) : ∃ text, r.below = captured text := by
  cases r with
  | build _ _ output => exact ⟨output, rfl⟩
  | _ => exact ⟨"", rfl⟩

end Reason

/-! ### The lines of a fixture -/

namespace FixtureResult

/-- How a fixture fared, which one it is, and how long it took. -/
def headline (f : FixtureResult) : String :=
  (if f.passed then "ok  " else "FAIL") ++ "  " ++ f.identifier ++ " (" ++
    f.duration.twoPlaces ++ ")"

/-- The lines below, if it failed. -/
def body (f : FixtureResult) : List String :=
  match f.outcome with
  | .passed         => []
  | .failed reasons =>
    reasons.flatMap Reason.lines ++
      if f.diagnostics.isEmpty then [] else "      stderr:" :: captured f.diagnostics

/-- A fixture is printed as one line and, below it, its reasons. -/
theorem lines_eq (f : FixtureResult) : f.lines = f.headline :: f.body := by
  unfold lines headline body passed
  cases f.outcome <;> rfl

/-- A line below is what a reason says, or captured, or stands in front of the diagnostics. -/
theorem mem_body {f : FixtureResult} {l : String} (h : l ∈ f.body) :
    (∃ why ∈ f.outcome.reasons, l = "      " ++ why.display) ∨ l = "      stderr:" ∨
      ∃ text, l ∈ captured text := by
  unfold body at h
  cases hout : f.outcome with
  | passed =>
    rw [hout] at h
    cases h
  | failed reasons =>
    rw [hout] at h
    obtain h | h := List.mem_append.1 h
    · obtain ⟨why, hwhy, h⟩ := List.mem_flatMap.1 h
      obtain ⟨text, htext⟩ := why.below_eq_captured
      rw [Reason.lines_eq, htext] at h
      obtain rfl | h := List.mem_cons.1 h
      · exact .inl ⟨why, hwhy, rfl⟩
      · exact .inr (.inr ⟨text, h⟩)
    · split at h
      next => cases h
      next =>
        obtain rfl | h := List.mem_cons.1 h
        · exact .inr (.inl rfl)
        · exact .inr (.inr ⟨_, h⟩)

/-- Every line below is indented. -/
theorem indented_body (f : FixtureResult) : ∀ l ∈ f.body, ∃ t, l = "      " ++ t := by
  intro l hl
  obtain ⟨why, -, rfl⟩ | rfl | ⟨text, hl⟩ := mem_body hl
  · exact ⟨_, rfl⟩
  · exact ⟨"stderr:", rfl⟩
  · obtain ⟨line, -, rfl⟩ := List.mem_map.1 hl
    exact ⟨"| " ++ line, by rw [← String.append_assoc]; rfl⟩

/-- The headline of a fixture is one line if its identifier is. -/
theorem isLine_headline {f : FixtureResult} (h : IsLine f.identifier) : IsLine f.headline := by
  have hverdict : IsLine (if f.passed then "ok  " else "FAIL") := by
    split <;> decide
  have hfront := isLine_append.2 ⟨isLine_append.2 ⟨hverdict, (by decide : IsLine "  ")⟩, h⟩
  have hback := isLine_append.2 ⟨hfront, (by decide : IsLine " (")⟩
  exact isLine_append.2 ⟨isLine_append.2 ⟨hback, f.duration.isLine_twoPlaces⟩, by decide⟩

/-- The lines below it have no line feed in them if no message has. -/
theorem isLine_body {f : FixtureResult}
    (h : ∀ why ∈ f.outcome.reasons, ∀ m, why.message? = some m → IsLine m) :
    ∀ l ∈ f.body, IsLine l := by
  intro l hl
  obtain ⟨why, hwhy, rfl⟩ | rfl | ⟨text, hl⟩ := mem_body hl
  · exact isLine_append.2 ⟨by decide, Reason.isLine_display (h why hwhy)⟩
  · decide
  · exact isLine_captured text l hl

end FixtureResult

/-! ### The lines of a report -/

/-- Whether no name and no message in a report has a line feed in it. What programs wrote may hold
any number of them. -/
structure RunReport.IsPlain (r : RunReport) : Prop where
  names : ∀ s ∈ r.suites, IsLine s.name
  identifiers : ∀ f ∈ r.results, IsLine f.identifier
  messages : ∀ f ∈ r.results, ∀ why ∈ f.outcome.reasons, ∀ m, why.message? = some m → IsLine m

/-- The counts are one line. -/
theorem isLine_countText (passed failed : Nat) : IsLine (countText passed failed) := by
  have hpassed := isLine_append.2 ⟨isLine_toString_nat passed, (by decide : IsLine " passed, ")⟩
  exact isLine_append.2 ⟨isLine_append.2 ⟨hpassed, isLine_toString_nat failed⟩, by decide⟩

/-- The counts of a suite are one line if its name is. -/
theorem SuiteReport.isLine_counts {s : SuiteReport} (h : IsLine s.name) (passed failed : Nat) :
    IsLine ("-- " ++ s.name ++ ": " ++ countText passed failed) := by
  have hname := isLine_append.2 ⟨(by decide : IsLine "-- "), h⟩
  have hcolon := isLine_append.2 ⟨hname, (by decide : IsLine ": ")⟩
  exact isLine_append.2 ⟨hcolon, isLine_countText passed failed⟩

namespace RunReport

/-- The last line is one line. -/
theorem isLine_lastLine (r : RunReport) : IsLine r.lastLine := by
  have hsuites : IsLine (if r.suites.length = 1 then " suite (" else " suites (") := by
    split <;> decide
  have hverdict : IsLine (if r.passed then "OK" else "FAILED") := by
    split <;> decide
  unfold lastLine
  simp only [isLine_append, isLine_countText, isLine_toString_nat, hsuites, hverdict,
    Duration.isLine_twoPlaces, and_true]
  decide

/-- Every line of a plain report is one line. -/
theorem IsPlain.isLine_lines {r : RunReport} (h : r.IsPlain) : ∀ l ∈ r.lines, IsLine l := by
  intro l hl
  obtain hl | hl := List.mem_append.1 hl
  · obtain ⟨s, hs, hl⟩ := List.mem_flatMap.1 hl
    have hname := h.names s hs
    obtain hl | hl := List.mem_append.1 hl
    · obtain rfl | hl := List.mem_cons.1 hl
      · exact isLine_append.2 ⟨by decide, hname⟩
      · obtain ⟨f, hf, hl⟩ := List.mem_flatMap.1 hl
        have hresult : f ∈ r.results := List.mem_flatMap.2 ⟨s, hs, hf⟩
        rw [FixtureResult.lines_eq] at hl
        obtain rfl | hl := List.mem_cons.1 hl
        · exact FixtureResult.isLine_headline (h.identifiers f hresult)
        · exact FixtureResult.isLine_body (h.messages f hresult) l hl
    · obtain rfl | hl := List.mem_cons.1 hl
      · exact SuiteReport.isLine_counts hname _ _
      · rw [List.mem_singleton.1 hl]
        decide
  · rw [List.mem_singleton.1 hl]
    exact r.isLine_lastLine

/-- The lines of a plain report can be read off its printed form. -/
theorem IsPlain.feedLines_render {r : RunReport} (h : r.IsPlain) :
    Text.feedLines r.render = r.lines :=
  Text.feedLines_unlines h.isLine_lines

end RunReport

end Assay
