import Assay.Exit

/-!
# Process — signals

Signals by number, with the names and descriptions they go by and what they do to a process that
has not said otherwise.

* `reaction`: what becomes of a process that gets a signal.
* `numberOf?`: the signal that a number or a name stands for.
-/

namespace Assay.Signal

/-- What a signal does to a process that has not said otherwise. -/
inductive Reaction where
  | ends
  | stops
  | resumes
  | nothing
  deriving DecidableEq, Repr

def interrupt : Nat := 2

def quit : Nat := 3

def kill : Nat := 9

def brokenPipe : Nat := 13

def terminate : Nat := 15

def childEnded : Nat := 17

def resume : Nat := 18

def stop : Nat := 19

/-- The number behind the last signal. -/
def count : Nat := 65

/-- Zero is no signal; it asks whether a process is there. -/
def reaction (n : Nat) : Reaction :=
  if [0, 17, 23, 28].contains n then .nothing
  else if n = resume then .resumes
  else if [19, 20, 21, 22].contains n then .stops
  else .ends

/-- Whether a process may decide what the signal does. -/
def isCatchable (n : Nat) : Bool := n != kill && n != stop

/-- The names of the first signals, in order, zero being the end of a shell. -/
def names : List String :=
  ["EXIT", "HUP", "INT", "QUIT", "ILL", "TRAP", "ABRT", "BUS", "FPE", "KILL", "USR1", "SEGV",
   "USR2", "PIPE", "ALRM", "TERM", "16", "CHLD", "CONT", "STOP", "TSTP", "TTIN", "TTOU", "URG",
   "XCPU", "XFSZ", "VTALRM", "PROF", "WINCH", "IO", "PWR", "SYS", "32", "33"]

/-- The name of a signal. Those for programs of their own are counted from both ends. -/
def name (n : Nat) : String :=
  if h : n < names.length then names[n]
  else if n = 34 then "RTMIN"
  else if n ≤ 49 then "RTMIN+" ++ toString (n - 34)
  else if n < 64 then "RTMAX-" ++ toString (64 - n)
  else "RTMAX"

/-- The signal that a name stands for, upper and lower case being the same. -/
def ofName? (text : String) : Option Nat :=
  let upper := String.ofList (text.toList.map Char.toUpper)
  (List.range count).find? fun n => name n == upper

/-- What is said of a process that a signal ended. -/
def description (n : Nat) : String :=
  let known : List String :=
    ["Hangup", "Interrupt", "Quit", "Illegal instruction", "Trace/breakpoint trap", "Aborted",
     "Bus error", "Floating point exception", "Killed", "User defined signal 1",
     "Segmentation fault", "User defined signal 2", "Broken pipe", "Alarm clock", "Terminated",
     "Stack fault", "Child exited", "Continued", "Stopped (signal)", "Stopped",
     "Stopped (tty input)", "Stopped (tty output)", "Urgent I/O condition",
     "CPU time limit exceeded", "File size limit exceeded", "Virtual timer expired",
     "Profiling timer expired", "Window changed", "I/O possible", "Power failure",
     "Bad system call"]
  match known[n - 1]? with
  | some text => text
  | none      =>
    if n < 34 then "Unknown signal " ++ toString n else "Real-time signal " ++ toString (n - 34)

end Assay.Signal
