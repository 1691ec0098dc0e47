import Assay.Proofs.FileSystem.Writing
import Assay.Proofs.Json.Writing
import Assay.Proofs.Scratch.Naming
import Assay.Report.Reader

/-!
# Report — nothing is lost in the document

`document_reads_back`: the text of a report is one document of the grammar, it is what is then read
in the file, and reading it gives the verdict, the counts, the whole milliseconds of the run and all
results. So reports with the same text have the same results, and differ at most in the part of the
run's duration below a millisecond.
-/

namespace Assay

/-! ### Under a key -/

/-- A key is looked up from the front. -/
@[simp] theorem Json.get?_cons (k key : String) (v : Json) (fs : List (String × Json)) :
    (Json.obj ((k, v) :: fs)).get? key = if key = k then some v else (Json.obj fs).get? key := by
  simp only [get?, List.lookup_cons]
  split
  next h => rw [if_pos (by simpa using h)]
  next h => rw [if_neg (by simpa using h)]

@[simp] theorem Json.get?_nil (key : String) : (Json.obj []).get? key = none := rfl

/-- A list is read back when each of its items is. -/
theorem Json.mapM_map {α : Type} {read : Json → Option α} {write : α → Json}
    (h : ∀ a, read (write a) = some a) (as : List α) : (as.map write).mapM read = some as := by
  induction as with
  | nil => rfl
  | cons a as ih => simp [h, ih]

/-! ### Each reader undoes its writer -/

/-- Seconds and nanoseconds beyond them make up the whole duration again. -/
@[simp] theorem Duration.ofJson?_toJson (d : Duration) : Duration.ofJson? d.toJson = some d := by
  simp [toJson, ofJson?, Json.nat, Json.nat?, d.nanos_lt]

/-- A code, a signal and neither of them are written in three different ways. -/
@[simp] theorem Exit.ofJson?_toJson (e : Exit) : Exit.ofJson? e.toJson = some e := by
  cases e <;> simp [toJson, ofJson?, Json.intAt, Json.int?]

@[simp] theorem Stage.ofName?_name (s : Stage) : Stage.ofName? s.name = some s := by
  cases s <;> rfl

/-- An exit that is known is never written as one that is not. -/
theorem Exit.toJson_ne_null (e : Exit) : e.toJson ≠ .null := by
  cases e <;> simp [toJson]

/-- Every kind of reason is read back with all its fields. -/
@[simp] theorem Reason.ofJson?_toJson (r : Reason) : Reason.ofJson? r.toJson = some r := by
  cases r with
  | build stage exit output =>
    simp only [toJson, ofJson?, kind, fields, Json.strAt, Json.str?]
    simp
    -- null stands for a missing exit, and for no other
    cases exit with
    | none => rfl
    | some e =>
      split
      next hnull => exact absurd hnull e.toJson_ne_null
      next => simp
  | setup | invalidExpectation | launch | aborted | cleanup | stdoutMismatch =>
    simp [toJson, ofJson?, kind, fields, Json.strAt, Json.str?]
  | buildTimedOut | timedOut | exitMismatch =>
    simp [toJson, ofJson?, kind, fields, Json.strAt, Json.str?, Json.intAt, Json.int?]

@[simp] theorem Outcome.ofJson?_toJson (o : Outcome) : Outcome.ofJson? o.toJson = some o := by
  cases o with
  | passed => rfl
  | failed reasons =>
    simp [toJson, ofJson?, Json.strAt, Json.str?, Json.arr?, Json.mapM_map Reason.ofJson?_toJson]

/-- A result is read back with its names, its reasons and its diagnostics. -/
@[simp] theorem FixtureResult.ofJson?_toJson (r : FixtureResult) :
    FixtureResult.ofJson? r.toJson = some r := by
  simp [toJson, ofJson?, Json.strAt, Json.str?]

@[simp] theorem SuiteReport.ofJson?_toJson (s : SuiteReport) :
    SuiteReport.ofJson? s.toJson = some s := by
  simp [toJson, ofJson?, Json.strAt, Json.str?, Json.arr?,
    Json.mapM_map FixtureResult.ofJson?_toJson]

namespace RunReport

/-- A report is read back as its verdict, its counts, its milliseconds and its suites. -/
theorem ofJson?_toJson (r : RunReport) : ReportDocument.ofJson? r.toJson =
    some ⟨r.passed, r.total, r.failedCount, r.duration.millis, r.suites⟩ := by
  simp [toJson, ReportDocument.ofJson?, Json.natAt, Json.nat, Json.nat?, Json.bool?, Json.arr?,
    Json.mapM_map SuiteReport.ofJson?_toJson]

/-! ### The text and the file -/

/-- The document is well formed and stands for the report. -/
theorem isDocument_document (r : RunReport) : Json.IsDocument r.toJson r.document := by
  rw [document]
  exact Json.isDocument_pretty r.toJson

/-- The text of the document is read back as the report is. -/
theorem parse?_document (r : RunReport) : ReportDocument.parse? r.document =
    some ⟨r.passed, r.total, r.failedCount, r.duration.millis, r.suites⟩ := by
  rw [ReportDocument.parse?, document, Json.parse_pretty, Option.bind_some, ofJson?_toJson]

/-- Reports with one document have the same suites. -/
theorem suites_of_document {r r' : RunReport} (h : r'.document = r.document) :
    r'.suites = r.suites := by
  have hread := (parse?_document r').symm.trans (h ▸ parse?_document r)
  exact congrArg ReportDocument.suites (Option.some.inj hread)

/-- Writing the document is writing its bytes to one file. -/
theorem write_of_writeDocument {r : RunReport} {p : Path} {fs fs' : FileSystem}
    (h : r.writeDocument p fs = .ok fs') :
    fs.write p ⟨Text.Utf8.encode r.document, false⟩ = .ok fs' := by
  rw [writeDocument] at h
  split at h
  next hw =>
    cases h
    exact hw
  next => cases h

theorem document_reads_back (r : RunReport) :
    Json.IsDocument r.toJson r.document ∧
    ReportDocument.parse? r.document =
      some ⟨r.passed, r.total, r.failedCount, r.duration.millis, r.suites⟩ ∧
    (∀ p fs fs', (∀ l v, fs.resolve .write p ≠ .ok (.occupied l (.device v))) →
      r.writeDocument p fs = .ok fs' → fs'.read p = .ok (Text.Utf8.encode r.document)) ∧
    ∀ r' : RunReport, Text.Utf8.encode r'.document = Text.Utf8.encode r.document →
      r'.suites = r.suites :=
  ⟨isDocument_document r, parse?_document r,
    fun _ _ _ hdevice h => FileSystem.read_of_write hdevice (write_of_writeDocument h),
    fun _ h => suites_of_document (Text.Utf8.encode_injective h)⟩

/-! ### A report of two suites, one of them empty -/

namespace Brief

/-- A failure with what a document has to escape, and a run that took some nanoseconds. -/
def report (nanos : Fin 1000) : RunReport where
  suites :=
    [⟨"empty", []⟩,
      ⟨"quotes", [⟨"quotes", "a\"b\\", .failed [.build .link none "\x00\n", .launch "ü"],
        .ofMillis 1500, ""⟩]⟩]
  duration := ⟨2, nanos, by omega⟩

def path : Path := ⟨[Path.slash, 0x72]⟩

theorem leads_to_a_free_place : FileSystem.empty.resolve .write path = .ok (.vacant [0x72] []) := by
  decide

end Brief

theorem document_reads_back_brief :
    ReportDocument.parse? (Brief.report 1).document =
      some ⟨false, 1, 1, 2000, (Brief.report 1).suites⟩ ∧
    (∃ fs', (Brief.report 1).writeDocument Brief.path .empty = .ok fs' ∧
      fs'.read Brief.path = .ok (Text.Utf8.encode (Brief.report 1).document)) ∧
    (Brief.report 2).suites = (Brief.report 1).suites := by
  obtain ⟨-, hread, hfile, hsuites⟩ := document_reads_back (Brief.report 1)
  refine ⟨hread, ?_, hsuites (Brief.report 2) rfl⟩
  cases h : (Brief.report 1).writeDocument Brief.path .empty with
  | error why =>
    have hok : ((Brief.report 1).writeDocument Brief.path .empty).isOk = true := by rfl
    rw [h] at hok
    cases hok
  | ok fs' =>
    refine ⟨fs', rfl, hfile _ _ _ (fun l v hv => ?_) h⟩
    cases Brief.leads_to_a_free_place.symm.trans hv

end RunReport

end Assay
