import Assay.Proofs.Check.Exit
import Assay.Proofs.Path.Join
import Assay.Proofs.Text.Utf8

/-!
# Check — the two parts of a verdict

Each reason that the check gives says which of its two judgements it comes from: a mismatch by its
kind, an invalid expectation by the file that its message names. So the two parts can be told apart
in the list alone (`Fixture.not_ofStdout_of_ofExit`).

* `Fixture.mem_check_iff_of_ofExit`, `Fixture.mem_check_iff_of_ofStdout`: a reason is in the list
  exactly if its own judgement gives it.
* `Fixture.exitReason_of_expectsCode`: the exit passes if it is a normal one with the expected code.
* `Fixture.stdoutReason_eq_none_iff`: the standard output passes if its bytes are the expected ones.
* `Fixture.check_in_parts`: what each part depends on, when it is empty, and what it says if not.
-/

namespace Assay

/-! ### Where a message names a file -/

namespace Path

open Text.Utf8 (shown)

/-- Two entries of a directory are shown alike up to their names. -/
theorem exists_shown_join (p : Path) :
    ∃ front, ∀ b n, b < 0x80 → IsSegment (b :: n) →
      shown (p.join ⟨b :: n⟩).bytes = front ++ Char.ofNat b.toNat :: shown n := by
  obtain ⟨front, -, hfront⟩ := exists_bytes_join p
  refine ⟨shown front, fun b n hb hn => ?_⟩
  rw [hfront _ (isAbsolute_name hn), Text.Utf8.shown_append hb, Text.Utf8.shown_cons_of_lt hb]

end Path

/-- The message says the path of the file as it is shown. -/
theorem Error.toList_message_invalidExpectation (p : Path) (why : ExpectationFault) :
    (Error.invalidExpectation p why).message.toList =
      "invalid expectation in ".toList ++ Text.Utf8.shown p.bytes ++ ": ".toList ++
        why.message.toList := by
  have hmessage : (Error.invalidExpectation p why).message =
      "invalid expectation in " ++ p.display ++ ": " ++ why.message := rfl
  rw [hmessage, String.toList_append, String.toList_append, String.toList_append, Path.display,
    Text.Utf8.toList_decodeLossy]

namespace Fixture

open Text.Utf8 (encode shown)

variable {f : Fixture} {fs : FileSystem} {o : Output} {bytes : Bytes} {r : Reason}

/-! ### The judgement of a reason -/

/-- Whether a reason says that the expectation in a file is invalid. -/
def Names (p : Path) (r : Reason) : Prop :=
  ∃ why, r = .invalidExpectation (Error.invalidExpectation p why).message

/-- Whether a reason is about the exit. -/
def OfExit (f : Fixture) (r : Reason) : Prop :=
  (∃ n e, r = .exitMismatch n e) ∨ Names f.exitFile r

/-- Whether a reason is about the standard output. -/
def OfStdout (f : Fixture) (r : Reason) : Prop :=
  (∃ expected actual, r = .stdoutMismatch expected actual) ∨ Names f.stdoutFile r

/-- No message names both files, whatever bytes the path of the directory has. -/
theorem not_names_both (h : Names f.exitFile r) : ¬ Names f.stdoutFile r := by
  rintro ⟨why', hr'⟩
  obtain ⟨why, rfl⟩ := h
  obtain ⟨front, hfront⟩ := Path.exists_shown_join f.directory
  have hexit : shown f.exitFile.bytes = front ++ 'e' :: shown (encode "xit.expected") :=
    hfront 0x65 _ (by decide) (by decide)
  have hstdout : shown f.stdoutFile.bytes = front ++ 's' :: shown (encode "tdout.expected") :=
    hfront 0x73 _ (by decide) (by decide)
  have hchars := congrArg String.toList (Reason.invalidExpectation.inj hr')
  -- behind the same directory one name goes on with an e and the other with an s
  rw [Error.toList_message_invalidExpectation, Error.toList_message_invalidExpectation, hexit,
    hstdout] at hchars
  simp only [List.append_assoc, List.cons_append, List.append_cancel_left_eq] at hchars
  exact absurd (List.cons.inj hchars).1 (by decide)

/-- No reason is about both. -/
theorem not_ofStdout_of_ofExit (h : f.OfExit r) : ¬ f.OfStdout r := by
  rintro (⟨expected, actual, rfl⟩ | hstdout)
  · obtain ⟨n, e, h⟩ | ⟨why, h⟩ := h
    · cases h
    · cases h
  · obtain ⟨n, e, rfl⟩ | hexit := h
    · obtain ⟨why, h⟩ := hstdout
      cases h
    · exact not_names_both hexit hstdout

/-! ### Expectations -/

/-- The code that the exit must have: zero if there is no file, else what the file states. -/
def ExpectsCode (f : Fixture) (fs : FileSystem) (n : Int) : Prop :=
  fs.Missing f.exitFile ∧ n = 0 ∨ ∃ bytes, fs.read f.exitFile = .ok bytes ∧ States bytes n

/-- The bytes that the standard output must have: none if there is no file. -/
def Expects (f : Fixture) (fs : FileSystem) (bytes : Bytes) : Prop :=
  fs.Missing f.stdoutFile ∧ bytes = [] ∨ fs.read f.stdoutFile = .ok bytes

/-- A file that cannot be read is an invalid expectation, and not one of nothing. -/
theorem expectedStdout_of_unreadable {why : Fault} (hmissing : ¬ fs.Missing f.stdoutFile)
    (h : fs.read f.stdoutFile = .error why) :
    f.expectedStdout fs = .error (.invalidExpectation f.stdoutFile (.unreadable why)) := by
  rw [expectedStdout, readOptional_of_unreadable hmissing h]
  rfl

/-- The expected output is known exactly if some bytes are expected. -/
theorem expectedStdout_eq_ok_iff : f.expectedStdout fs = .ok bytes ↔ f.Expects fs bytes := by
  rw [expectedStdout, Expects]
  by_cases hmissing : fs.Missing f.stdoutFile
  · rw [readOptional_of_missing hmissing, FileSystem.read_eq_notFound_iff.2 hmissing]
    simp [Functor.map, Except.map, hmissing, eq_comm]
  · cases hread : fs.read f.stdoutFile with
    | error why =>
      rw [readOptional_of_unreadable hmissing hread]
      simp [Functor.map, Except.map, hmissing]
    | ok content =>
      rw [readOptional_of_read hread]
      simp [Functor.map, Except.map, hmissing]

/-- Whatever is wrong with an expected exit code, the error names its file. -/
theorem expectedExit_eq_error {why : Error} (h : f.expectedExit fs = .error why) :
    ∃ fault, why = .invalidExpectation f.exitFile fault := by
  by_cases hmissing : fs.Missing f.exitFile
  · rw [expectedExit_of_missing hmissing] at h
    cases h
  · cases hread : fs.read f.exitFile with
    | error fault =>
      rw [expectedExit_of_unreadable hmissing hread] at h
      cases h
      exact ⟨_, rfl⟩
    | ok content =>
      rw [expectedExit_of_read hread] at h
      by_cases hstates : ∃ n, States content n
      · obtain ⟨n, hn⟩ := hstates
        rw [parseExit_eq_ok_iff.2 hn] at h
        cases h
      · obtain ⟨fault, hfault⟩ := parseExit_eq_error (not_exists.1 hstates)
        rw [hfault] at h
        cases h
        exact ⟨_, rfl⟩

/-! ### What each judgement gives -/

/-- Against an expected code only a normal exit with it passes; any other exit is a mismatch. -/
theorem exitReason_of_expectsCode {n : Int} (h : f.ExpectsCode fs n) (e : Exit) :
    f.exitReason fs e = if e = .code n then none else some (.exitMismatch n e) := by
  rw [exitReason, expectedExit_eq_ok_iff.2 h, Check.part, Check.exit]
  simp only [Exit.code?_eq_some_iff]

/-- The exit passes exactly if some code is expected and it is a normal exit with that. -/
theorem exitReason_eq_none_iff_expectsCode {e : Exit} :
    f.exitReason fs e = none ↔ ∃ n, f.ExpectsCode fs n ∧ e = .code n := by
  simp only [exitReason_eq_none_iff, expectedExit_eq_ok_iff, Exit.code?_eq_some_iff, ExpectsCode]

/-- A file that states nothing is an invalid expectation, for whatever reason it is no number. -/
theorem exitReason_of_not_states (hread : fs.read f.exitFile = .ok bytes)
    (h : ∀ n, ¬ States bytes n) :
    ∃ why, Numeral.parse .int32 (Text.trimBlank (Text.Utf8.decodeLossy bytes).toList) =
        .error why ∧
      ∀ e, f.exitReason fs e = some (.invalidExpectation (Error.invalidExpectation f.exitFile
        (.notInteger (Text.trim (Text.Utf8.decodeLossy bytes)) why)).message) := by
  have hexpected := expectedExit_of_read hread
  rw [parseExit] at hexpected
  cases hparse : Numeral.parse .int32 (Text.trimBlank (Text.Utf8.decodeLossy bytes).toList) with
  | ok n =>
    have hok : parseExit f.exitFile bytes = .ok n := by rw [parseExit, hparse]
    exact absurd (parseExit_eq_ok_iff.1 hok) (h n)
  | error why =>
    rw [hparse] at hexpected
    exact ⟨why, rfl, exitReason_of_error hexpected⟩

/-- What the exit is judged to be is about the exit. -/
theorem ofExit_of_exitReason {e : Exit} (h : f.exitReason fs e = some r) : f.OfExit r := by
  rw [exitReason] at h
  cases hexpected : f.expectedExit fs with
  | error why =>
    obtain ⟨fault, rfl⟩ := expectedExit_eq_error hexpected
    rw [hexpected] at h
    exact .inr ⟨fault, (Option.some.inj h).symm⟩
  | ok n =>
    rw [hexpected, Check.part, Check.exit] at h
    split at h
    · cases h
    · exact .inl ⟨n, e, (Option.some.inj h).symm⟩

/-- Where the expected output cannot be read, no output passes. -/
theorem stdoutReason_of_unreadable {why : Fault} (hmissing : ¬ fs.Missing f.stdoutFile)
    (h : fs.read f.stdoutFile = .error why) (out : Bytes) :
    f.stdoutReason fs out = some (.invalidExpectation
      (Error.invalidExpectation f.stdoutFile (.unreadable why)).message) := by
  rw [stdoutReason, expectedStdout_of_unreadable hmissing h]
  rfl

/-- Other bytes are a mismatch, and both sides are shown as text. -/
theorem stdoutReason_of_ne {out : Bytes} (h : f.Expects fs bytes) (hne : bytes ≠ out) :
    f.stdoutReason fs out =
      some (.stdoutMismatch (Text.Utf8.decodeLossy bytes) (Text.Utf8.decodeLossy out)) := by
  rw [stdoutReason, expectedStdout_eq_ok_iff.2 h, Check.part, Check.stdout,
    if_neg (mt beq_iff_eq.1 hne)]

/-- The standard output passes exactly if its bytes are the expected ones, whatever they are decoded
to. -/
theorem stdoutReason_eq_none_iff {out : Bytes} :
    f.stdoutReason fs out = none ↔ f.Expects fs out := by
  constructor
  · intro h
    cases hexpected : f.expectedStdout fs with
    | error why =>
      rw [stdoutReason, hexpected] at h
      cases h
    | ok bytes =>
      have hbytes := expectedStdout_eq_ok_iff.1 hexpected
      by_cases hne : bytes = out
      · rwa [← hne]
      · rw [stdoutReason_of_ne hbytes hne] at h
        cases h
  · intro h
    rw [stdoutReason, expectedStdout_eq_ok_iff.2 h, Check.part, Check.stdout,
      if_pos (beq_iff_eq.2 rfl)]

/-- What the standard output is judged to be is about the standard output. -/
theorem ofStdout_of_stdoutReason {out : Bytes} (h : f.stdoutReason fs out = some r) :
    f.OfStdout r := by
  by_cases hmissing : fs.Missing f.stdoutFile
  · by_cases hne : ([] : Bytes) = out
    · rw [stdoutReason_eq_none_iff.2 (.inl ⟨hmissing, hne.symm⟩)] at h
      cases h
    · rw [stdoutReason_of_ne (.inl ⟨hmissing, rfl⟩) hne] at h
      exact .inl ⟨_, _, (Option.some.inj h).symm⟩
  · cases hread : fs.read f.stdoutFile with
    | error why =>
      rw [stdoutReason_of_unreadable hmissing hread] at h
      exact .inr ⟨_, (Option.some.inj h).symm⟩
    | ok bytes =>
      by_cases hne : bytes = out
      · rw [stdoutReason_eq_none_iff.2 (.inr (hne ▸ hread))] at h
        cases h
      · rw [stdoutReason_of_ne (.inr hread) hne] at h
        exact .inl ⟨_, _, (Option.some.inj h).symm⟩

/-- The exit is judged by what is read from its own file. -/
theorem exitReason_congr {fs' : FileSystem} (h : fs.read f.exitFile = fs'.read f.exitFile)
    (e : Exit) : f.exitReason fs e = f.exitReason fs' e := by
  rw [exitReason, exitReason, expectedExit, expectedExit, readOptional, readOptional, h]

/-- The standard output is judged by what is read from its own file. -/
theorem stdoutReason_congr {fs' : FileSystem} (h : fs.read f.stdoutFile = fs'.read f.stdoutFile)
    (out : Bytes) : f.stdoutReason fs out = f.stdoutReason fs' out := by
  rw [stdoutReason, stdoutReason, expectedStdout, expectedStdout, readOptional, readOptional, h]

/-! ### The list of reasons -/

/-- A reason about the exit is in the list exactly if the exit is judged so. -/
theorem mem_check_iff_of_ofExit (h : f.OfExit r) :
    r ∈ f.check fs o ↔ f.exitReason fs o.exit = some r := by
  rw [check_eq, List.mem_append, Option.mem_toList, Option.mem_toList]
  exact or_iff_left fun hstdout => not_ofStdout_of_ofExit h (ofStdout_of_stdoutReason hstdout)

/-- A reason about the standard output is in the list exactly if that is judged so. -/
theorem mem_check_iff_of_ofStdout (h : f.OfStdout r) :
    r ∈ f.check fs o ↔ f.stdoutReason fs o.stdout = some r := by
  rw [check_eq, List.mem_append, Option.mem_toList, Option.mem_toList]
  exact or_iff_right fun hexit => not_ofStdout_of_ofExit (ofExit_of_exitReason hexit) h

/-- What the exit is judged to be is the only reason about it. -/
theorem mem_check_iff_of_exitReason {why : Reason} (h : f.exitReason fs o.exit = some why)
    (hr : f.OfExit r) : r ∈ f.check fs o ↔ r = why := by
  rw [mem_check_iff_of_ofExit hr, h, Option.some.injEq, eq_comm]

/-- What the standard output is judged to be is the only reason about it. -/
theorem mem_check_iff_of_stdoutReason {why : Reason} (h : f.stdoutReason fs o.stdout = some why)
    (hr : f.OfStdout r) : r ∈ f.check fs o ↔ r = why := by
  rw [mem_check_iff_of_ofStdout hr, h, Option.some.injEq, eq_comm]

/-- Nothing is said about an exit that passes. -/
theorem not_ofExit_iff :
    (∀ r ∈ f.check fs o, ¬ f.OfExit r) ↔ f.exitReason fs o.exit = none := by
  rw [Option.eq_none_iff_forall_ne_some]
  constructor
  · intro h r hr
    have hof := ofExit_of_exitReason hr
    exact h r ((mem_check_iff_of_ofExit hof).2 hr) hof
  · intro h r hr hof
    exact h r ((mem_check_iff_of_ofExit hof).1 hr)

/-- Nothing is said about a standard output that passes. -/
theorem not_ofStdout_iff :
    (∀ r ∈ f.check fs o, ¬ f.OfStdout r) ↔ f.stdoutReason fs o.stdout = none := by
  rw [Option.eq_none_iff_forall_ne_some]
  constructor
  · intro h r hr
    have hof := ofStdout_of_stdoutReason hr
    exact h r ((mem_check_iff_of_ofStdout hof).2 hr) hof
  · intro h r hr hof
    exact h r ((mem_check_iff_of_ofStdout hof).1 hr)

/-- A verdict is at most one reason about the exit and then at most one about the standard output.
Which is which can be told from the list. The first depends on the file with the exit code and on
the exit alone; the second on the file with the output and on the bytes of the output alone. So
standard error counts for neither, and nothing about one file changes what is said by the other.

The first part is empty exactly if a code is expected and the exit is a normal one with it. With
another exit there is a mismatch of the two; a file that states no code, and one that is there and
cannot be read, is named as invalid, whatever the exit is.

The second part is empty exactly if the bytes are those of the file, or none without a file. Where
they are not, there is a mismatch, also if both sides are shown as the same text; where the file is
there and cannot be read, the message names it. -/
theorem check_in_parts (f : Fixture) :
    (∀ fs o, ∃ exit stdout : Option Reason, f.check fs o = exit.toList ++ stdout.toList ∧
      (∀ r, exit = some r → f.OfExit r) ∧ ∀ r, stdout = some r → f.OfStdout r) ∧
    (∀ r, f.OfExit r → ¬ f.OfStdout r) ∧
    (∀ fs fs' o o', fs.read f.exitFile = fs'.read f.exitFile → o.exit = o'.exit →
      ∀ r, f.OfExit r → (r ∈ f.check fs o ↔ r ∈ f.check fs' o')) ∧
    (∀ fs fs' o o', fs.read f.stdoutFile = fs'.read f.stdoutFile → o.stdout = o'.stdout →
      ∀ r, f.OfStdout r → (r ∈ f.check fs o ↔ r ∈ f.check fs' o')) ∧
    (∀ fs o err, f.check fs { o with stderr := err } = f.check fs o) ∧
    (∀ fs o, (∀ r ∈ f.check fs o, ¬ f.OfExit r) ↔ ∃ n, f.ExpectsCode fs n ∧ o.exit = .code n) ∧
    (∀ fs o n, f.ExpectsCode fs n → o.exit ≠ .code n →
      ∀ r, f.OfExit r → (r ∈ f.check fs o ↔ r = .exitMismatch n o.exit)) ∧
    (∀ fs bytes, fs.read f.exitFile = .ok bytes → (∀ n, ¬ States bytes n) →
      ∃ why, Numeral.parse .int32 (Text.trimBlank (Text.Utf8.decodeLossy bytes).toList) =
          .error why ∧
        ∀ o r, f.OfExit r → (r ∈ f.check fs o ↔
          r = .invalidExpectation (Error.invalidExpectation f.exitFile
            (.notInteger (Text.trim (Text.Utf8.decodeLossy bytes)) why)).message)) ∧
    (∀ fs o why, ¬ fs.Missing f.exitFile → fs.read f.exitFile = .error why →
      ∀ r, f.OfExit r → (r ∈ f.check fs o ↔
        r = .invalidExpectation (Error.invalidExpectation f.exitFile (.unreadable why)).message)) ∧
    (∀ fs o, (∀ r ∈ f.check fs o, ¬ f.OfStdout r) ↔
      fs.Missing f.stdoutFile ∧ o.stdout = [] ∨ fs.read f.stdoutFile = .ok o.stdout) ∧
    (∀ fs o bytes,
      fs.Missing f.stdoutFile ∧ bytes = [] ∨ fs.read f.stdoutFile = .ok bytes → bytes ≠ o.stdout →
      ∀ r, f.OfStdout r → (r ∈ f.check fs o ↔
        r = .stdoutMismatch (Text.Utf8.decodeLossy bytes) (Text.Utf8.decodeLossy o.stdout))) ∧
    ∀ fs o why, ¬ fs.Missing f.stdoutFile → fs.read f.stdoutFile = .error why →
      ∀ r, f.OfStdout r → (r ∈ f.check fs o ↔
        r = .invalidExpectation
          (Error.invalidExpectation f.stdoutFile (.unreadable why)).message) := by
  refine ⟨fun fs o => ?_, fun r => not_ofStdout_of_ofExit, fun fs fs' o o' hfile hexit r hr => ?_,
    fun fs fs' o o' hfile hstdout r hr => ?_, fun fs o err => rfl, fun fs o => ?_,
    fun fs o n hn hne r hr => ?_, fun fs bytes hread hnone => ?_,
    fun fs o why hmissing hread r hr => ?_, fun fs o => ?_, fun fs o bytes hbytes hne r hr => ?_,
    fun fs o why hmissing hread r hr => ?_⟩
  · exact ⟨f.exitReason fs o.exit, f.stdoutReason fs o.stdout, check_eq f fs o,
      fun r => ofExit_of_exitReason, fun r => ofStdout_of_stdoutReason⟩
  · rw [mem_check_iff_of_ofExit hr, mem_check_iff_of_ofExit hr, exitReason_congr hfile, hexit]
  · rw [mem_check_iff_of_ofStdout hr, mem_check_iff_of_ofStdout hr, stdoutReason_congr hfile,
      hstdout]
  -- the exit
  · exact not_ofExit_iff.trans exitReason_eq_none_iff_expectsCode
  · exact mem_check_iff_of_exitReason ((exitReason_of_expectsCode hn _).trans (if_neg hne)) hr
  · obtain ⟨why, hparse, hreason⟩ := exitReason_of_not_states hread hnone
    exact ⟨why, hparse, fun o r => mem_check_iff_of_exitReason (hreason o.exit)⟩
  · have hreason := exitReason_of_error (expectedExit_of_unreadable hmissing hread) o.exit
    exact mem_check_iff_of_exitReason hreason hr
  -- the standard output
  · exact not_ofStdout_iff.trans stdoutReason_eq_none_iff
  · exact mem_check_iff_of_stdoutReason (stdoutReason_of_ne hbytes hne) hr
  · exact mem_check_iff_of_stdoutReason (stdoutReason_of_unreadable hmissing hread _) hr

namespace Undecodable

/-- A content of the file with the exit code, and as the expected output a byte that is no text. -/
def files (content : Bytes) : FileSystem :=
  ((Stated.files content).write Stated.fixture.stdoutFile ⟨[0xFE], false⟩).toOption.getD
    FileSystem.empty

/-- A program that ends in some way, with another byte that is no text. -/
def output (exit : Exit) : Output where
  exit := exit
  stdout := [0xFF]
  stderr := []

end Undecodable

/-- The bytes differ where the texts do not. Neither a sign alone as the expected exit code hides
this nor a seven, with which an exit with zero and an end by the seventh signal are mismatches. -/
theorem check_in_parts_of_undecodable :
    (∃ why, .invalidExpectation (Error.invalidExpectation Stated.fixture.exitFile why).message ∈
      Stated.fixture.check (Undecodable.files Stated.sign) (Undecodable.output (.code 0))) ∧
    .stdoutMismatch "\uFFFD" "\uFFFD" ∈
      Stated.fixture.check (Undecodable.files Stated.sign) (Undecodable.output (.code 0)) ∧
    .exitMismatch 7 (.code 0) ∈
      Stated.fixture.check (Undecodable.files Stated.seven) (Undecodable.output (.code 0)) ∧
    .exitMismatch 7 (.signal 7) ∈
      Stated.fixture.check (Undecodable.files Stated.seven) (Undecodable.output (.signal 7)) ∧
    .stdoutMismatch "\uFFFD" "\uFFFD" ∈
      Stated.fixture.check (Undecodable.files Stated.seven) (Undecodable.output (.code 0)) := by
  have hstdout : ∀ content ∈ [Stated.sign, Stated.seven],
      (Undecodable.files content).read Stated.fixture.stdoutFile = .ok [0xFE] := by decide +kernel
  have hsign : (Undecodable.files Stated.sign).read Stated.fixture.exitFile = .ok Stated.sign := by
    decide +kernel
  have hseven : (Undecodable.files Stated.seven).read Stated.fixture.exitFile =
      .ok Stated.seven := by decide +kernel
  have hfault : (parseExit Stated.fixture.exitFile Stated.sign).isOk = false := by decide +kernel
  have hparse : parseExit Stated.fixture.exitFile Stated.seven = .ok 7 := by decide +kernel
  have hnothing : ∀ n, ¬ States Stated.sign n := by
    intro n hn
    rw [parseExit_eq_ok_iff.2 hn] at hfault
    cases hfault
  have hcode : Stated.fixture.ExpectsCode (Undecodable.files Stated.seven) 7 :=
    .inr ⟨Stated.seven, hseven, parseExit_eq_ok_iff.1 hparse⟩
  obtain ⟨-, -, -, -, -, -, hexit, hinvalid, -, -, hmismatch, -⟩ := check_in_parts Stated.fixture
  obtain ⟨why, -, hreason⟩ := hinvalid _ _ hsign hnothing
  have hbytes : ∀ content ∈ [Stated.sign, Stated.seven],
      .stdoutMismatch "\uFFFD" "\uFFFD" ∈
        Stated.fixture.check (Undecodable.files content) (Undecodable.output (.code 0)) := by
    intro content hcontent
    exact (hmismatch _ _ [0xFE] (.inr (hstdout content hcontent)) (by decide) _
      (.inl ⟨_, _, rfl⟩)).2 (by decide +kernel)
  refine ⟨⟨_, (hreason _ _ (.inr ⟨_, rfl⟩)).2 rfl⟩, hbytes _ List.mem_cons_self,
    (hexit _ _ 7 hcode (by decide) _ (.inl ⟨_, _, rfl⟩)).2 rfl,
    (hexit _ _ 7 hcode (by decide) _ (.inl ⟨_, _, rfl⟩)).2 rfl,
    hbytes _ (List.mem_cons_of_mem _ List.mem_cons_self)⟩

end Fixture

end Assay
