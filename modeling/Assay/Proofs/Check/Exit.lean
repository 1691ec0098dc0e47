import Assay.Check
import Assay.Proofs.FileSystem.Passage
import Assay.Proofs.Text.Numeral

/-!
# Check — the verdict on an exit

From the bytes of the expectation file and the bits of the wait status to a reason or none.

* `Exit.ofStatus_toInt`: a wait status by its bits. Bits zero to six tell the kind of ending; the
  code is in bits eight to fifteen, and nothing else of the status counts.
* `Fixture.expectedExit_eq_ok_iff`: the code that is expected. It is zero only if there is no file.
* `Fixture.exit_verdict`: which endings pass.
-/

namespace Assay

open Assay.Numeral (Denotes Range)

/-! ### The wait status -/

namespace Exit

/-- Only a normal exit has a code, and has that one. -/
theorem code?_eq_some_iff {e : Exit} {n : Int} : e.code? = some n ↔ e = .code n := by
  cases e with
  | code m => rw [code?, Option.some.injEq, Exit.code.injEq]
  | signal m => exact iff_of_false nofun nofun
  | unknown => exact iff_of_false nofun nofun

/-- Whether a wait status is that of a normal exit with the code `n`. -/
def IsNormal (s : BitVec 32) (n : Int) : Prop :=
  s.extractLsb' 0 7 = 0#7 ∧ ((s.extractLsb' 8 8).toNat : Int) = n

/-- A wait status is a signed integer only in name. -/
theorem ofStatus_toInt (s : BitVec 32) :
    ofStatus s.toInt =
      if s.extractLsb' 0 7 = 0#7 then .code (s.extractLsb' 8 8).toNat
      else if (s.extractLsb' 0 7).toNat < 127 then .signal (s.extractLsb' 0 7).toNat
      else .unknown := by
  have hlow : (s.extractLsb' 0 7).toNat = s.toNat % 128 := by
    rw [BitVec.extractLsb'_toNat, Nat.shiftRight_zero]
  have hcode : (s.extractLsb' 8 8).toNat = s.toNat / 256 % 256 := by
    rw [BitVec.extractLsb'_toNat, Nat.shiftRight_eq_div_pow]
  have hzero : s.extractLsb' 0 7 = 0#7 ↔ s.toNat % 128 = 0 := by
    rw [← BitVec.toNat_inj, hlow, BitVec.toNat_zero]
  -- the sign is worth 2 ^ 32, which neither remainder sees
  have hraw : s.toInt % 128 = (s.toNat % 128 : Nat) ∧
      s.toInt / 256 % 256 = (s.toNat / 256 % 256 : Nat) := by
    rw [BitVec.toInt_eq_toNat_cond]
    split <;> omega
  rw [ofStatus, hraw.1, hraw.2, Int.toNat_natCast, hlow, hcode]
  simp only [hzero]

/-- A wait status has a code exactly if it is that of a normal exit. -/
theorem code?_ofStatus_toInt {s : BitVec 32} {n : Int} :
    (ofStatus s.toInt).code? = some n ↔ IsNormal s n := by
  rw [ofStatus_toInt, IsNormal]
  by_cases hlow : s.extractLsb' 0 7 = 0#7
  · rw [if_pos hlow, code?, Option.some.injEq, and_iff_right hlow]
  · rw [if_neg hlow]
    refine iff_of_false ?_ fun h => hlow h.1
    split <;> exact nofun

end Exit

/-! ### A missing file -/

namespace FileSystem

variable {fs : FileSystem} {p : Path} {n : Bytes} {d : Loc}

/-- Whether there is no file at a path: the system looks for one and finds nothing. -/
def Missing (fs : FileSystem) (p : Path) : Prop := fs.lookup true p = .error (.os .notFound)

/-- Only what is missing is reported as not found. -/
theorem read_eq_notFound_iff : fs.read p = .error (.os .notFound) ↔ fs.Missing p := by
  rw [read, openFile, Missing]
  cases fs.lookup true p with
  | error why =>
    constructor
    · intro h
      cases h
      rfl
    · intro h
      cases h
      rfl
  | ok found =>
    obtain ⟨l, e⟩ := found
    cases e <;> exact iff_of_false nofun nofun

/-- What exists is not missing. -/
theorem not_missing_of_exists (h : fs.exists? p = true) : ¬ fs.Missing p := by
  intro hmissing
  rw [exists?, hmissing] at h
  cases h

/-- A file is missing from a directory in which nothing has its name. -/
theorem missing_of_openDir (hp : fs.openDir p = .ok d) (hn : IsName n)
    (ha : Askable (p.join ⟨n⟩)) (h : fs.get? (n :: d) = none) : fs.Missing (p.join ⟨n⟩) := by
  have hd : fs.isDirAt d = true := isDirAt_iff.2 (get?_of_lookup (openDir_eq_ok.1 hp))
  have hresolve : fs.resolve (.find true) (p.join ⟨n⟩) = .ok (.vacant n d) :=
    resolve_of_free (reaches_of_openDir hp) hd (Path.isSegment_of_isName hn) hn.2.2.2.2.2 ha h
  rw [Missing, lookup, hresolve]
  rfl

end FileSystem

/-! ### What is expected -/

namespace Fixture

variable {f : Fixture} {fs : FileSystem} {bytes : Bytes} {n : Int}

theorem readOptional_of_missing {p : Path} (h : fs.Missing p) : readOptional fs p = .ok none := by
  rw [readOptional, FileSystem.read_eq_notFound_iff.2 h]

/-- A file that is there and cannot be read is an invalid expectation, which names the file. -/
theorem readOptional_of_unreadable {p : Path} {why : Fault} (hmissing : ¬ fs.Missing p)
    (h : fs.read p = .error why) :
    readOptional fs p = .error (.invalidExpectation p (.unreadable why)) := by
  have hwhy : why ≠ .os .notFound := by
    rintro rfl
    exact hmissing (FileSystem.read_eq_notFound_iff.1 h)
  rw [readOptional, h]
  split
  next heq => cases heq
  next heq => exact absurd (Except.error.inj heq) hwhy
  next heq =>
    cases heq
    rfl

theorem readOptional_of_read {p : Path} (h : fs.read p = .ok bytes) :
    readOptional fs p = .ok (some bytes) := by
  rw [readOptional, h]

/-- Whether the content of an expectation file states the exit code `n`: as text without the blanks
around it, it is an integer of thirty-two bits in decimal. -/
def States (bytes : Bytes) (n : Int) : Prop :=
  Denotes (Text.trimBlank (Text.Utf8.decodeLossy bytes).toList) n ∧ -2147483648 ≤ n ∧ n ≤ 2147483647

/-- A content is read as a code exactly if it states it. -/
theorem parseExit_eq_ok_iff {p : Path} : parseExit p bytes = .ok n ↔ States bytes n := by
  have hparse : ∀ cs, Numeral.parse .int32 cs = .ok n ↔
      Denotes cs n ∧ -2147483648 ≤ n ∧ n ≤ 2147483647 := by
    intro cs
    rw [Numeral.parse_eq_ok_iff (by decide) (by decide)]
    exact and_congr_right' (and_iff_left fun _ => by decide)
  rw [States, ← hparse, parseExit]
  cases Numeral.parse .int32 (Text.trimBlank (Text.Utf8.decodeLossy bytes).toList) with
  | error why => exact iff_of_false nofun nofun
  | ok m =>
    constructor
    · intro h
      cases h
      rfl
    · intro h
      cases h
      rfl

/-- A content that states nothing is invalid: the error names the file and shows the text. -/
theorem parseExit_eq_error {p : Path} (h : ∀ n, ¬ States bytes n) :
    ∃ why, parseExit p bytes = .error (.invalidExpectation p
      (.notInteger (Text.trim (Text.Utf8.decodeLossy bytes)) why)) := by
  cases hp : parseExit p bytes with
  | ok n => exact absurd (parseExit_eq_ok_iff.1 hp) (h n)
  | error why =>
    rw [parseExit] at hp
    split at hp
    · cases hp
    next fault _ => exact ⟨fault, hp.symm⟩

theorem expectedExit_of_read (h : fs.read f.exitFile = .ok bytes) :
    f.expectedExit fs = parseExit f.exitFile bytes := by
  rw [expectedExit, readOptional_of_read h]
  rfl

/-- Without a file the expected code is zero. -/
theorem expectedExit_of_missing (h : fs.Missing f.exitFile) : f.expectedExit fs = .ok 0 := by
  rw [expectedExit, readOptional_of_missing h]
  rfl

/-- A file that cannot be read is an invalid expectation, and not one of zero. -/
theorem expectedExit_of_unreadable {why : Fault} (hmissing : ¬ fs.Missing f.exitFile)
    (h : fs.read f.exitFile = .error why) :
    f.expectedExit fs = .error (.invalidExpectation f.exitFile (.unreadable why)) := by
  rw [expectedExit, readOptional_of_unreadable hmissing h]
  rfl

/-- A code is expected exactly if no file is there and it is zero, or the file states it. -/
theorem expectedExit_eq_ok_iff :
    f.expectedExit fs = .ok n ↔
      fs.Missing f.exitFile ∧ n = 0 ∨ ∃ bytes, fs.read f.exitFile = .ok bytes ∧ States bytes n := by
  by_cases hmissing : fs.Missing f.exitFile
  · have hread := FileSystem.read_eq_notFound_iff.2 hmissing
    rw [expectedExit_of_missing hmissing, hread, Except.ok.injEq]
    simp [hmissing, eq_comm]
  · cases hread : fs.read f.exitFile with
    | error why =>
      rw [expectedExit_of_unreadable hmissing hread]
      simp [hmissing]
    | ok bytes =>
      rw [expectedExit_of_read hread, parseExit_eq_ok_iff]
      simp [hmissing]

/-! ### The verdict -/

/-- What the check says of an exit: a reason, or nothing. -/
def exitReason (f : Fixture) (fs : FileSystem) (e : Exit) : Option Reason :=
  Check.part (f.expectedExit fs) fun n => Check.exit n e

/-- What the check says of the standard output. -/
def stdoutReason (f : Fixture) (fs : FileSystem) (out : Bytes) : Option Reason :=
  Check.part (f.expectedStdout fs) fun expected => Check.stdout expected out

/-- The check judges the exit and the standard output, each by its own file. -/
theorem check_eq (f : Fixture) (fs : FileSystem) (o : Output) :
    f.check fs o = (f.exitReason fs o.exit).toList ++ (f.stdoutReason fs o.stdout).toList := rfl

/-- An exit passes exactly if it is a normal one with the expected code. -/
theorem exitReason_eq_none_iff {e : Exit} :
    f.exitReason fs e = none ↔ ∃ n, f.expectedExit fs = .ok n ∧ e.code? = some n := by
  rw [exitReason]
  cases f.expectedExit fs with
  | error why => exact iff_of_false nofun fun ⟨n, h, _⟩ => nomatch h
  | ok n =>
    rw [Check.part, Check.exit]
    split
    next h => exact iff_of_true rfl ⟨n, rfl, h⟩
    next h =>
      refine iff_of_false nofun ?_
      rintro ⟨m, hm, he⟩
      cases hm
      exact h he

/-- Without a valid expectation the reason is why there is none. -/
theorem exitReason_of_error {why : Error} (h : f.expectedExit fs = .error why) (e : Exit) :
    f.exitReason fs e = some (.invalidExpectation why.message) := by
  rw [exitReason, h]
  rfl

/-- The check judges the exit and the standard output apart. An exit passes exactly if it is a
normal one with the expected code: zero if the file is missing, else what it states. If it states
nothing or cannot be read, the reason is an invalid expectation, whatever the exit is. An end by a
signal and a stopped program never pass.

A file that exists is not missing; one that does not stand in the directory is, if its path is no
longer than the system takes. -/
theorem exit_verdict (f : Fixture) (fs : FileSystem) :
    (∀ o, f.check fs o =
      (f.exitReason fs o.exit).toList ++ (f.stdoutReason fs o.stdout).toList) ∧
    (∀ s : BitVec 32, f.exitReason fs (.ofStatus s.toInt) = none ↔
      fs.Missing f.exitFile ∧ Exit.IsNormal s 0 ∨
      ∃ bytes n, fs.read f.exitFile = .ok bytes ∧ States bytes n ∧ Exit.IsNormal s n) ∧
    (∀ bytes, fs.read f.exitFile = .ok bytes → (∀ n, ¬ States bytes n) →
      ∃ why, ∀ e, f.exitReason fs e = some (.invalidExpectation
        (Error.invalidExpectation f.exitFile
          (.notInteger (Text.trim (Text.Utf8.decodeLossy bytes)) why)).message)) ∧
    (∀ why, ¬ fs.Missing f.exitFile → fs.read f.exitFile = .error why →
      ∀ e, f.exitReason fs e = some (.invalidExpectation
        (Error.invalidExpectation f.exitFile (.unreadable why)).message)) ∧
    (∀ s : BitVec 32, s.extractLsb' 0 7 ≠ 0#7 → f.exitReason fs (.ofStatus s.toInt) ≠ none) ∧
    (fs.exists? f.exitFile = true → ¬ fs.Missing f.exitFile) ∧
    ∀ d, fs.openDir f.directory = .ok d → FileSystem.Askable f.exitFile →
      fs.get? (Text.Utf8.encode "exit.expected" :: d) = none → fs.Missing f.exitFile := by
  refine ⟨check_eq f fs, fun s => ?_, fun bytes hread hstates => ?_, fun why hmissing hread => ?_,
    fun s hlow h => ?_, FileSystem.not_missing_of_exists, fun d hd hask hnone => ?_⟩
  · simp only [exitReason_eq_none_iff, expectedExit_eq_ok_iff, Exit.code?_ofStatus_toInt]
    constructor
    · rintro ⟨n, ⟨hmissing, rfl⟩ | ⟨bytes, hread, hstates⟩, hnormal⟩
      · exact .inl ⟨hmissing, hnormal⟩
      · exact .inr ⟨bytes, n, hread, hstates, hnormal⟩
    · rintro (⟨hmissing, hnormal⟩ | ⟨bytes, n, hread, hstates, hnormal⟩)
      · exact ⟨0, .inl ⟨hmissing, rfl⟩, hnormal⟩
      · exact ⟨n, .inr ⟨bytes, hread, hstates⟩, hnormal⟩
  · obtain ⟨why, hparse⟩ := parseExit_eq_error hstates
    exact ⟨why, exitReason_of_error ((expectedExit_of_read hread).trans hparse)⟩
  · exact exitReason_of_error (expectedExit_of_unreadable hmissing hread)
  · obtain ⟨n, -, hcode⟩ := exitReason_eq_none_iff.1 h
    exact hlow (Exit.code?_ofStatus_toInt.1 hcode).1
  · exact FileSystem.missing_of_openDir hd (by decide) hask hnone

namespace Stated

def fixture : Fixture := ⟨.ofString "001"⟩

/-- The directory of the fixture, with a file that has a content. -/
def files (content : Bytes) : FileSystem :=
  let fs := (FileSystem.empty.makeDirs fixture.directory).2
  (fs.write fixture.exitFile ⟨content, false⟩).toOption.getD fs

/-- A no-break space, a sign, a seven and the end of the line. -/
def seven : Bytes := [0xC2, 0xA0, 0x2B, 0x37, 0x0A]

/-- A sign alone. -/
def sign : Bytes := [0x2B]

end Stated

/-- With blanks and a sign around it a seven is stated: an exit with it passes, and an end by the
seventh signal does not. A sign alone states nothing. -/
theorem exit_verdict_of_seven :
    Stated.fixture.exitReason (Stated.files Stated.seven) (.ofStatus (0x700#32).toInt) = none ∧
      Stated.fixture.exitReason (Stated.files Stated.seven) (.ofStatus (0x7#32).toInt) ≠ none ∧
      ∃ why, ∀ e, Stated.fixture.exitReason (Stated.files Stated.sign) e =
        some (.invalidExpectation (Error.invalidExpectation Stated.fixture.exitFile
          (.notInteger (Text.trim (Text.Utf8.decodeLossy Stated.sign)) why)).message) := by
  have hseven : (Stated.files Stated.seven).read Stated.fixture.exitFile = .ok Stated.seven := by
    decide +kernel
  have hsign : (Stated.files Stated.sign).read Stated.fixture.exitFile = .ok Stated.sign := by
    decide +kernel
  have hparse : parseExit Stated.fixture.exitFile Stated.seven = .ok 7 := by decide +kernel
  have hfault : (parseExit Stated.fixture.exitFile Stated.sign).isOk = false := by decide +kernel
  have hnothing : ∀ n, ¬ States Stated.sign n := by
    intro n hn
    rw [parseExit_eq_ok_iff.2 hn] at hfault
    cases hfault
  obtain ⟨-, hpass, -, -, hkilled, -⟩ := exit_verdict Stated.fixture (Stated.files Stated.seven)
  obtain ⟨-, -, hinvalid, -⟩ := exit_verdict Stated.fixture (Stated.files Stated.sign)
  have hnormal : Exit.IsNormal 0x700#32 7 := ⟨by decide, by decide⟩
  exact ⟨(hpass 0x700#32).2 (.inr ⟨_, 7, hseven, parseExit_eq_ok_iff.1 hparse, hnormal⟩),
    hkilled 0x7#32 (by decide), hinvalid _ hsign hnothing⟩

end Fixture

end Assay
