import Assay.Run.Cycle

/-!
# Run — command lines tried one after another

A cycle runs up to four command lines. How one of them can fare is said by `Fares`: no program is
started, nobody can wait for the program, its time is up before it ends, or it ends by itself, with
a code or otherwise. This is what running it does (`Invocation.run_eq_iff`).

`Trials host plan m ts m'` says that from the machine `m` the command lines of a plan are run one
after another, as long as each succeeds; `ts` are those that were run, each with how it fared, and
`m'` is the machine after them. What was run is the beginning of the plan (`Trials.along`), and it
goes on exactly while everything succeeds (`Trials.next_iff`).

* `Harness.plan`: the four command lines of a cycle, with their limits.
* `Build.run_stages`: the stages of a build are such trials.
-/

namespace Assay

/-! ### One command line -/

/-- How a command line fares under a limit on a machine, and the machine that it leaves. -/
inductive Fares (host : Host) (i : Invocation) (limit : Duration) (m : Machine) :
    Except Error Finish → Machine → Prop where
  /-- No program is started. -/
  | unstarted {why : Fault} (h : host.locate m.files i = .error why) :
      Fares host i limit m (.error (.spawn i.program why)) m
  /-- The program is started and cannot be waited for. -/
  | lost {image : Image} {why : Fault} {a : Act} (h : host.locate m.files i = .ok image)
      (ha : host.act m.files image limit = a) (he : a.exit = .error why) :
      Fares host i limit m (.error (.file why))
        { m with files := a.files, started := m.started ++ a.started }
  /-- The program has not ended when its time is up. -/
  | stopped {image : Image} {a : Act} (h : host.locate m.files i = .ok image)
      (ha : host.act m.files image limit = a) (he : a.exit = .ok none) :
      Fares host i limit m (.ok (.timedOut limit))
        { m with files := a.files, started := m.started ++ a.started }
  /-- The program ends by itself: with a code, by a signal, or in a way that is neither. -/
  | ended {image : Image} {exit : Exit} {a : Act} (h : host.locate m.files i = .ok image)
      (ha : host.act m.files image limit = a) (he : a.exit = .ok (some exit)) :
      Fares host i limit m (.ok (.completed ⟨exit, a.stdout, a.stderr⟩))
        { m with files := a.files, started := m.started ++ a.started }

namespace Invocation

variable {host : Host} {i : Invocation} {limit : Duration} {m m' : Machine}
  {fared : Except Error Finish}

theorem run_of_fares (h : Fares host i limit m fared m') : i.run host limit m = (fared, m') := by
  unfold run
  cases h with
  | unstarted h => rw [h]
  | lost h ha he | stopped h ha he | ended h ha he =>
    subst ha
    rw [h]
    simp only [Act.finish, he, Machine.after]

/-- There is no other way to fare. -/
theorem fares_run (host : Host) (i : Invocation) (limit : Duration) (m : Machine) :
    Fares host i limit m (i.run host limit m).1 (i.run host limit m).2 := by
  unfold run
  cases h : host.locate m.files i with
  | error why => exact .unstarted h
  | ok image =>
    simp only [Act.finish]
    cases he : (host.act m.files image limit).exit with
    | error why => exact .lost h rfl he
    | ok exit? =>
      cases exit? with
      | none => exact .stopped h rfl he
      | some exit => exact .ended h rfl he

/-- To run a command line is to start and await the program that the host finds for it. -/
theorem run_eq_iff : i.run host limit m = (fared, m') ↔ Fares host i limit m fared m' := by
  refine ⟨fun h => ?_, run_of_fares⟩
  have hfares := fares_run host i limit m
  rwa [h] at hfares

/-- A program that is stopped is stopped at its limit. -/
theorem run_timedOut {after : Duration} (h : i.run host limit m = (.ok (.timedOut after), m')) :
    after = limit := by
  cases run_eq_iff.1 h with
  | stopped => rfl

end Invocation

/-! ### Several in a row -/

/-- A command line that was run under a limit, and how it fared. -/
structure Trial where
  invocation : Invocation
  limit : Duration
  fared : Except Error Finish

namespace Trial

def command (t : Trial) : Invocation × Duration := (t.invocation, t.limit)

/-- Whether the program ended by itself, with code zero. -/
def succeeded (t : Trial) : Bool :=
  match t.fared with
  | .ok (.completed o) => o.exit == .code 0
  | _                  => false

end Trial

/-- Runs the command lines of a plan until one does not succeed. -/
inductive Trials (host : Host) :
    List (Invocation × Duration) → Machine → List Trial → Machine → Prop where
  | done (m : Machine) : Trials host [] m [] m
  | stop {i : Invocation} {limit : Duration} {rest : List (Invocation × Duration)} {m m' : Machine}
      {fared : Except Error Finish} (h : Fares host i limit m fared m')
      (hf : (⟨i, limit, fared⟩ : Trial).succeeded = false) :
      Trials host ((i, limit) :: rest) m [⟨i, limit, fared⟩] m'
  | go {i : Invocation} {limit : Duration} {rest : List (Invocation × Duration)}
      {m m₁ m' : Machine} {fared : Except Error Finish} {ts : List Trial}
      (h : Fares host i limit m fared m₁)
      (hs : (⟨i, limit, fared⟩ : Trial).succeeded = true) (r : Trials host rest m₁ ts m') :
      Trials host ((i, limit) :: rest) m (⟨i, limit, fared⟩ :: ts) m'

namespace Trials

variable {host : Host} {plan rest : List (Invocation × Duration)} {m m' m'' : Machine}
  {ts ts' : List Trial}

/-- The first command line is always run, and the others if it succeeds. -/
theorem cons_inv {i : Invocation} {limit : Duration}
    (h : Trials host ((i, limit) :: rest) m ts m') :
    ∃ t m₁ ts', Fares host i limit m t.fared m₁ ∧ ts = t :: ts' ∧
      (t.succeeded = false ∧ ts' = [] ∧ m' = m₁ ∨
        t.succeeded = true ∧ Trials host rest m₁ ts' m') := by
  cases h with
  | stop h hf => exact ⟨_, _, [], h, rfl, .inl ⟨hf, rfl, rfl⟩⟩
  | go h hs r => exact ⟨_, _, _, h, rfl, .inr ⟨hs, r⟩⟩

/-- The last command line of a plan is run whatever becomes of it. -/
theorem last {i : Invocation} {limit : Duration} {fared : Except Error Finish}
    (h : Fares host i limit m fared m') :
    Trials host [(i, limit)] m [⟨i, limit, fared⟩] m' := by
  cases hs : (⟨i, limit, fared⟩ : Trial).succeeded with
  | false => exact .stop h hs
  | true => exact .go h hs (.done m')

/-- What was run is the beginning of the plan. -/
theorem along (h : Trials host plan m ts m') : ts.map Trial.command <+: plan := by
  induction h with
  | done => exact List.nil_prefix
  | stop _ _ => exact List.cons_prefix_cons.2 ⟨rfl, List.nil_prefix⟩
  | go _ _ _ ih => exact List.cons_prefix_cons.2 ⟨rfl, ih⟩

/-- A command line of the plan is run exactly if all before it have succeeded. -/
theorem next_iff (h : Trials host plan m ts m') {k : Nat} (hk : k < plan.length) :
    k < ts.length ↔ ∀ t ∈ ts.take k, t.succeeded = true := by
  induction h generalizing k with
  | done => cases hk
  | stop _ hf =>
    cases k with
    | zero => exact iff_of_true Nat.one_pos fun t ht => nomatch ht
    | succ k =>
      refine iff_of_false (fun h => Nat.not_lt_zero k (Nat.lt_of_succ_lt_succ h)) fun hall => ?_
      have := hall _ List.mem_cons_self
      rw [hf] at this
      cases this
  | go _ hs _ ih =>
    cases k with
    | zero => exact iff_of_true (Nat.succ_pos _) fun t ht => nomatch ht
    | succ k =>
      rw [List.length_cons, Nat.succ_lt_succ_iff, ih (Nat.lt_of_succ_lt_succ hk),
        List.take_succ_cons, List.forall_mem_cons]
      exact (and_iff_right hs).symm

/-- A row of trials that has come to the end of its plan goes on with another. -/
theorem append (h : Trials host plan m ts m') (hall : ∀ t ∈ ts, t.succeeded = true)
    (h' : Trials host rest m' ts' m'') : Trials host (plan ++ rest) m (ts ++ ts') m'' := by
  induction h with
  | done => exact h'
  | stop _ hf =>
    have := hall _ List.mem_cons_self
    rw [hf] at this
    cases this
  | go hr hs _ ih => exact .go hr hs (ih (fun t ht => hall t (List.mem_cons_of_mem _ ht)) h')

/-- A row of trials that has stopped does so whatever else was planned. -/
theorem stopped (h : Trials host plan m ts m') (hsome : ∃ t ∈ ts, t.succeeded = false)
    (rest : List (Invocation × Duration)) : Trials host (plan ++ rest) m ts m' := by
  induction h with
  | done =>
    obtain ⟨t, ht, -⟩ := hsome
    cases ht
  | stop hr hf => exact .stop hr hf
  | go hr hs _ ih =>
    refine .go hr hs (ih ?_)
    obtain ⟨t, ht, hf⟩ := hsome
    obtain rfl | ht := List.mem_cons.1 ht
    · cases hs.symm.trans hf
    · exact ⟨t, ht, hf⟩

end Trials

/-! ### The command lines of a cycle -/

namespace Build

/-- The command lines of some stages, each on the output of the one before. -/
def commands (t : Toolchain) (limit : Duration) (scratch : Scratch) :
    List Stage → Path → List (Invocation × Duration)
  | [], _          => []
  | s :: ss, input =>
    (t.invocation s input (scratch.file s.outputName), limit) ::
      commands t limit scratch ss (scratch.file s.outputName)

/-- The reason for a stage that did not succeed: it could not be started or waited for, was stopped
at its limit, or ended in a way that is no success. -/
def reason (limit : Duration) (stage : Stage) : Except Error Finish → Reason
  | .error why          => .build stage none why.message
  | .ok (.timedOut _)   => .buildTimedOut stage limit
  | .ok (.completed o)  => .build stage (some o.exit) o.combined

/-- The reason for the first stage that did not succeed, if any. -/
def blame (limit : Duration) : List Stage → List Trial → Option Reason
  | s :: ss, t :: ts => if t.succeeded then blame limit ss ts else some (reason limit s t.fared)
  | _, _             => none

end Build

namespace Harness

/-- The command lines of a cycle: the compiler under test on the source, the code generator on what
the compiler was told to write, the linker on what the code generator was told to write, and the
program that the linker was told to write. -/
def plan (c : Config) (s : Scratch) (f : Fixture) : List (Invocation × Duration) :=
  let flag := Text.Utf8.encode
  let t := c.toolchain
  [(⟨t.compiler.program, t.compiler.args.map flag ++
      [(f.directory.child "main.c").bytes, flag "-o", (s.file "program.ll").bytes]⟩,
    c.limits.stage),
   (⟨t.codegen.program, t.codegen.args.map flag ++
      ((if t.pic then [flag "-relocation-model=pic"] else []) ++
        [(s.file "program.ll").bytes, flag "-filetype=obj", flag "-o",
          (s.file "program.o").bytes])⟩,
    c.limits.stage),
   (⟨t.linker.program, t.linker.args.map flag ++
      [(s.file "program.o").bytes, flag "-o", (s.file "program").bytes]⟩,
    c.limits.stage),
   (⟨s.file "program", []⟩, c.limits.run)]

theorem plan_eq (c : Config) (s : Scratch) (f : Fixture) :
    plan c s f =
      Build.commands c.toolchain c.limits.stage s [.translate, .codegen, .link] f.source ++
        [(⟨s.file "program", []⟩, c.limits.run)] := rfl

end Harness

/-! ### A build -/

namespace Build

variable {host : Host} {limit : Duration} {m m' : Machine}

/-- What a build makes of one command line. -/
theorem stageFailure_of_run {i : Invocation} {fared : Except Error Finish}
    (h : i.run host limit m = (fared, m')) (s : Stage) :
    stageFailure s fared =
      if (⟨i, limit, fared⟩ : Trial).succeeded then none else some (reason limit s fared) := by
  cases fared with
  | error why => rfl
  | ok finish =>
    cases finish with
    | timedOut after => rw [Invocation.run_timedOut h]; rfl
    | completed o =>
      obtain ⟨exit, stdout, stderr⟩ := o
      cases exit with
      | signal | unknown => rfl
      | code n =>
        by_cases hn : n = 0
        · subst hn
          rfl
        · simp [stageFailure, Exit.isSuccess, Exit.code?, Trial.succeeded, reason, hn]

variable (host limit) in
theorem run_stage (t : Toolchain) (s : Stage) (input output : Path) (m : Machine) :
    (stage host t limit s input output).run m =
      (some (stageFailure s ((t.invocation s input output).run host limit m).1),
        ((t.invocation s input output).run host limit m).2) := by
  rw [stage, Task.run_map]
  rfl

variable (host limit) in
/-- The stages of a build are run one on the output of the other, until one does not succeed. -/
theorem run_stages (t : Toolchain) (scratch : Scratch) (ss : List Stage) (input : Path)
    (m : Machine) : ∃ ts m', Trials host (commands t limit scratch ss input) m ts m' ∧
      (stages host t limit scratch ss input).run m = (some (blame limit ss ts), m') := by
  induction ss generalizing input m with
  | nil => exact ⟨[], m, .done m, rfl⟩
  | cons s ss ih =>
    obtain ⟨fared, m₁, hrun⟩ : ∃ fared m₁,
        (t.invocation s input (scratch.file s.outputName)).run host limit m = (fared, m₁) :=
      ⟨_, _, rfl⟩
    have hstage := run_stage host limit t s input (scratch.file s.outputName) m
    rw [hrun, stageFailure_of_run hrun] at hstage
    -- the stages behind this one are run on its output exactly if it succeeds
    cases hs : (⟨t.invocation s input (scratch.file s.outputName), limit, fared⟩ :
        Trial).succeeded with
    | false =>
      refine ⟨_, m₁, .stop (Invocation.run_eq_iff.1 hrun) hs, ?_⟩
      rw [hs, if_neg Bool.false_ne_true] at hstage
      rw [stages, Task.run_bind, hstage, blame, hs, if_neg Bool.false_ne_true]
      rfl
    | true =>
      obtain ⟨ts, m', hts, hrest⟩ := ih (scratch.file s.outputName) m₁
      refine ⟨_, m', .go (Invocation.run_eq_iff.1 hrun) hs hts, ?_⟩
      rw [hs, if_pos rfl] at hstage
      rw [stages, Task.run_bind, hstage, blame, hs, if_pos rfl]
      exact hrest

end Build

end Assay
