import Assay.Text.Utf8

/-!
# Exit — how a program ended and what it left on its streams

* `Exit.ofStatus`: the reading of a wait status. Its low seven bits are zero after a normal exit
  and all ones for a program that is only stopped; anything else is the number of a signal.
* `Output.combined`: both streams as one text, in which each still has its own lines.
-/

namespace Assay

/-- How a program ended. -/
inductive Exit where
  | code (n : Int)
  | signal (n : Int)
  /-- Neither a code nor a signal was reported. -/
  | unknown
  deriving DecidableEq, Repr

namespace Exit

def code? : Exit → Option Int
  | .code n => some n
  | _       => none

/-- The one way to succeed is to end with code zero. -/
def isSuccess (e : Exit) : Bool := e.code? == some 0

def describe : Exit → String
  | .code n   => "exit code " ++ toString n
  | .signal n => "terminated by signal " ++ toString n
  | .unknown  => "unknown exit status"

/-- What a wait status of thirty-two bits says: the low seven bits tell the kind of ending, the
code is in bits eight to fifteen. -/
def ofStatus (raw : Int) : Exit :=
  let low := (raw % 128).toNat
  if low = 0 then .code (raw / 256 % 256)
  else if low < 127 then .signal low
  else .unknown

end Exit

/-- What a program left that ended by itself. -/
structure Output where
  exit : Exit
  stdout : Bytes
  stderr : Bytes
  deriving DecidableEq, Repr

namespace Output

def stdoutText (o : Output) : String := Text.Utf8.decodeLossy o.stdout

def stderrText (o : Output) : String := Text.Utf8.decodeLossy o.stderr

/-- Standard output, then standard error; a line feed is put between them where the first would
otherwise run into the second. -/
def combined (o : Output) : String :=
  let out := o.stdoutText
  let runsOn := !out.isEmpty && out.toList.getLast? != some '\n' && !o.stderr.isEmpty
  out ++ (if runsOn then "\n" else "") ++ o.stderrText

end Output

end Assay
