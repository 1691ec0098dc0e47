import Assay.Proofs.Pool.Results
import Assay.Run.Cycle

/-!
# Run — what the results of cycles have in common

The result of a cycle carries the name of its suite and the identifier of its fixture, whatever the
pipeline does (`always_named`). With the toolchain pipeline no reason of a result says that the task
ended without one (`always_not_aborted`): that reason is kept for those tasks.
-/

namespace Assay

/-- Whether one of the reasons is that a task ended without a result. -/
def Outcome.IsAborted (o : Outcome) : Prop := ∃ m, Reason.aborted m ∈ o.reasons

/-- A failure for one reason is aborted if that reason says so. -/
@[simp] theorem Outcome.isAborted_failed_singleton {r : Reason} :
    (Outcome.failed [r]).IsAborted ↔ ∃ m, r = .aborted m := by
  simp [IsAborted, reasons, eq_comm]

/-- To judge a program gives no reasons but these. -/
theorem Check.mem_output {exit : Except Error Int} {stdout : Except Error Bytes} {o : Output}
    {r : Reason} (h : r ∈ Check.output exit stdout o) :
    (∃ message, r = .invalidExpectation message) ∨
      (∃ expected actual, r = .exitMismatch expected actual) ∨
      ∃ expected actual, r = .stdoutMismatch expected actual := by
  rcases List.mem_append.1 h with h | h
  · rw [Option.mem_toList] at h
    cases exit with
    | error why => exact .inl ⟨_, (Option.some.inj h).symm⟩
    | ok e =>
      simp only [part, Check.exit] at h
      split at h
      · cases h
      · exact .inr (.inl ⟨_, _, (Option.some.inj h).symm⟩)
  · rw [Option.mem_toList] at h
    cases stdout with
    | error why => exact .inl ⟨_, (Option.some.inj h).symm⟩
    | ok e =>
      simp only [part, Check.stdout] at h
      split at h
      · cases h
      · exact .inr (.inr ⟨_, _, (Option.some.inj h).symm⟩)

namespace Harness

/-- A cycle gives its result the names of its suite and its fixture. -/
theorem always_named (h : Harness) (id suite : String) (f : Fixture) :
    (h.cycle id suite f).Always fun r => r.suite = suite ∧ r.identifier = f.identifier := by
  refine Task.always_bind_of_forall fun created => ?_
  cases created with
  | error why => exact ⟨rfl, rfl⟩
  | ok scratch =>
    refine Task.always_bind_of_forall fun built => ?_
    cases built with
    | error reason => exact ⟨rfl, rfl⟩
    | ok artifact => exact Task.always_map (Task.always_of_forall (fun _ => ⟨rfl, rfl⟩) _)

/-! ### The reasons of a toolchain -/

/-- No stage fails as aborted. -/
theorem stageFailure_ne_aborted {s : Stage} {fared : Except Error Finish} {r : Reason}
    (h : Build.stageFailure s fared = some r) (m : String) : r ≠ .aborted m := by
  rintro rfl
  cases fared with
  | error why => cases h
  | ok finish =>
    cases finish with
    | timedOut limit => cases h
    | completed o =>
      simp only [Build.stageFailure] at h
      split at h <;> cases h

/-- No row of stages fails as aborted. -/
theorem always_stages (host : Host) (t : Toolchain) (limit : Duration) (scratch : Scratch)
    (ss : List Stage) (input : Path) :
    (Build.stages host t limit scratch ss input).Always fun o =>
      ∀ r, o = some r → ∀ m, r ≠ .aborted m := by
  induction ss generalizing input with
  | nil => exact fun _ h => nomatch h
  | cons s ss ih =>
    refine Task.always_bind
      (P := fun o => ∀ r, o = some r → ∀ m, r ≠ .aborted m) ?_ fun o ho => ?_
    · exact Task.always_map (Task.always_act.2 fun _ _ h => stageFailure_ne_aborted h)
    · cases o with
      | some r => exact ho
      | none => exact ih _

/-- No program is judged as aborted. -/
theorem always_execute (host : Host) (limit : Duration) (a : Artifact) (f : Fixture) :
    (execute host limit a f).Always fun e => ¬ e.outcome.IsAborted := by
  refine Task.always_bind_of_forall fun fared => ?_
  cases fared with
  | error why => simp
  | ok finish =>
    cases finish with
    | timedOut after => simp
    | completed o =>
      refine Task.always_bind_of_forall fun exit => Task.always_bind_of_forall fun stdout => ?_
      rintro ⟨m, hm⟩
      rw [Outcome.reasons_ofReasons] at hm
      obtain ⟨_, h⟩ | ⟨_, _, h⟩ | ⟨_, _, h⟩ := Check.mem_output hm <;> cases h

/-- A reason of its own is added to those of a run when the scratch directory stays. -/
theorem always_conclude (h : Harness) (a : Artifact) (f : Fixture) :
    (h.conclude a f).Always fun e => ¬ e.outcome.IsAborted := by
  refine Task.always_bind (always_execute _ _ a f) fun e he =>
    Task.always_bind_of_forall fun released => ?_
  cases released with
  | ok _ => exact he
  | error why =>
    rintro ⟨m, hm⟩
    rw [Outcome.reasons_add, List.mem_append, List.mem_singleton] at hm
    exact hm.elim (fun hm => he ⟨m, hm⟩) fun hm => nomatch hm

/-- No result of a toolchain says that its task ended without one. -/
theorem always_not_aborted (host : Host) (c : Config) (id suite : String) (f : Fixture) :
    ((ofConfig host c).cycle id suite f).Always fun r => ¬ r.outcome.IsAborted := by
  refine Task.always_bind_of_forall fun created => ?_
  cases created with
  | error why => simp
  | ok scratch =>
    refine Task.always_bind (P := fun b => ∀ r, b = .error r → ∀ m, r ≠ .aborted m) ?_
      fun built hb => ?_
    · -- to drop the scratch directory does not change the reason of the build
      refine Task.always_bind (always_stages _ _ _ _ _ _) fun o ho => ?_
      cases o with
      | none => exact fun _ h => nomatch h
      | some r =>
        refine Task.always_bind_of_forall fun _ => ?_
        rintro r' h
        cases h
        exact ho r rfl
    · cases built with
      | error reason => simpa using hb reason rfl
      | ok artifact => exact Task.always_map (always_conclude _ artifact f)

end Harness

end Assay
