import Assay.Path

/-!
# Invocation — a command line

A program and its arguments, as they are shown and as tools read them.
-/

namespace Assay

structure Invocation where
  program : Path
  args : List Bytes
  deriving DecidableEq, Repr

namespace Invocation

/-- The program and the arguments, one blank between them. -/
def display (i : Invocation) : String :=
  String.intercalate " " (i.program.display :: i.args.map Text.Utf8.decodeLossy)

/-- The file a tool is told to read and the file it is told to write. -/
structure Operands where
  input : Option Path
  output : Option Path
  deriving DecidableEq, Repr

/-- The option that names the output. -/
def outputOption : Bytes := [0x2D, 0x6F]

/-- Whether an argument starts as options do, with a hyphen. -/
def isOption (a : Bytes) : Bool := a.head? == some 0x2D

/-- Reads arguments from the left: the one behind `-o` is the output, other options are skipped,
and of the rest the last is the input. -/
def operands : List Bytes → Operands
  | []     => ⟨none, none⟩
  | [a]    => if isOption a then ⟨none, none⟩ else ⟨some ⟨a⟩, none⟩
  | a :: b :: r =>
    if a = outputOption then
      let o := operands r
      ⟨o.input, o.output.or (some ⟨b⟩)⟩
    else
      let o := operands (b :: r)
      if isOption a then o else ⟨o.input.or (some ⟨a⟩), o.output⟩

end Invocation

end Assay
