import Assay.Proofs.Report.Counts
import Assay.Proofs.Run.Reporting

/-!
# Run — when a run has passed

The verdict of a report is that of its results: it passes exactly if each fixture that was found has
come to a result of its own and passed (`passed_iff`). A fixture whose task ended without a result
is reported as a failure, so no verdict passes over it.
-/

namespace Assay.Harness

variable {h : Harness} {ids : Nat → String} {suites : List Suite} {m m' : Machine} {r : RunReport}

/-- Whether a report has, in the order of the suites and their fixtures, one result for each fixture
that the task of the fixture came to, and each of them a pass. -/
structure AllPassed (h : Harness) (ids : Nat → String) (suites : List Suite) (r : RunReport) :
    Prop where
  names : r.suites.map (·.name) = suites.map (·.name)
  passed : ∀ (i : Nat) (s : Suite), suites[i]? = some s → ∃ rs,
    r.suites[i]? = some ⟨s.name, rs⟩ ∧ rs.length = s.fixtures.length ∧
      ∀ (k : Nat) (f : Fixture), s.fixtures[k]? = some f → ∃ (n : Nat) (result : FixtureResult),
        (jobs suites)[n]? = some ⟨⟨i, k⟩, s.name, f⟩ ∧
        (h.task ids n ⟨⟨i, k⟩, s.name, f⟩).Yields result ∧
        rs[k]? = some result ∧ result.suite = s.name ∧ result.identifier = f.identifier ∧
        result.outcome = .passed

theorem mem_results_passed {rs : List FixtureResult} {name : String} {r : RunReport} {i k : Nat}
    {result : FixtureResult} (h : r.passed = true) (hs : r.suites[i]? = some ⟨name, rs⟩)
    (hk : rs[k]? = some result) : result.outcome = .passed :=
  RunReport.passed_iff.1 h _ (List.mem_of_getElem? hs) _ (List.mem_of_getElem? hk)

/-- Passes all over make a report that passes. -/
theorem AllPassed.report_passed (hall : h.AllPassed ids suites r) : r.passed = true := by
  refine RunReport.passed_iff.2 fun report hreport result hresult => ?_
  obtain ⟨i, hi⟩ := List.mem_iff_getElem?.1 hreport
  obtain ⟨s, hs⟩ : ∃ s, suites[i]? = some s := by
    have hname : (suites.map (·.name))[i]? = some report.name := by
      rw [← hall.names, List.getElem?_map, hi]
      rfl
    rw [List.getElem?_map] at hname
    obtain ⟨s, hs, -⟩ := Option.map_eq_some_iff.1 hname
    exact ⟨s, hs⟩
  obtain ⟨rs, hrs, hlen, hrow⟩ := hall.passed i s hs
  obtain rfl := Option.some.inj (hi.symm.trans hrs)
  obtain ⟨k, hk⟩ := List.mem_iff_getElem?.1 hresult
  obtain ⟨hlt, -⟩ := List.getElem?_eq_some_iff.1 hk
  obtain ⟨n, result', -, -, hk', -, -, hpass⟩ :=
    hrow k _ (List.getElem?_eq_getElem (hlen ▸ hlt))
  obtain rfl := Option.some.inj (hk.symm.trans hk')
  exact hpass

/-- The verdict of a run, under whatever schedule: a pass exactly if every fixture passed. -/
theorem passed_iff {schedule : List Pool.Event}
    (hr : h.run ids schedule suites m = some (r, m')) :
    r.passed = true ↔ h.AllPassed ids suites r := by
  refine ⟨fun hpass => ?_, AllPassed.report_passed⟩
  obtain ⟨p, hp, hfin, rfl, -⟩ := reachable_of_run hr
  refine ⟨names_report hp, fun i s hs => ?_⟩
  obtain ⟨rs, hrs, hlen, hrow⟩ := rows_of_finished hp hfin hs
  refine ⟨rs, hrs, hlen, fun k f hf => ?_⟩
  obtain ⟨n, sent, hj, hw, hk⟩ := hrow k f hf
  have houtcome := mem_results_passed hpass hrs hk
  obtain ⟨hsuite, hid⟩ := named_of_job hp hj hw
  cases sent with
  | none => cases houtcome
  | some result =>
    have hyields := always_of_job (Task.always_yields _) hp hj hw
    exact ⟨n, result, hj, hyields result rfl, hk, hsuite, hid, houtcome⟩

end Assay.Harness
