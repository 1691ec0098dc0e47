/-!
# Fault — why a system call fails

The causes that a file operation or a program start can report, each with its one text.
-/

namespace Assay

/-- The numbered causes. -/
inductive Errno where
  | notPermitted
  | notFound
  | noProcess
  | badFormat
  | badDescriptor
  | permissionDenied
  | exists
  | notDirectory
  | isDirectory
  | invalid
  | noSpace
  | brokenPipe
  | nameTooLong
  | tooManyLinks
  deriving DecidableEq, Repr

namespace Errno

def code : Errno → Nat
  | .notPermitted     => 1
  | .notFound         => 2
  | .noProcess        => 3
  | .badFormat        => 8
  | .badDescriptor    => 9
  | .permissionDenied => 13
  | .exists           => 17
  | .notDirectory     => 20
  | .isDirectory      => 21
  | .invalid          => 22
  | .noSpace          => 28
  | .brokenPipe       => 32
  | .nameTooLong      => 36
  | .tooManyLinks     => 40

def text : Errno → String
  | .notPermitted     => "Operation not permitted"
  | .notFound         => "No such file or directory"
  | .noProcess        => "No such process"
  | .badFormat        => "Exec format error"
  | .badDescriptor    => "Bad file descriptor"
  | .permissionDenied => "Permission denied"
  | .exists           => "File exists"
  | .notDirectory     => "Not a directory"
  | .isDirectory      => "Is a directory"
  | .invalid          => "Invalid argument"
  | .noSpace          => "No space left on device"
  | .brokenPipe       => "Broken pipe"
  | .nameTooLong      => "File name too long"
  | .tooManyLinks     => "Too many levels of symbolic links"

def all : List Errno :=
  [.notPermitted, .notFound, .noProcess, .badFormat, .badDescriptor, .permissionDenied, .exists,
   .notDirectory, .isDirectory, .invalid, .noSpace, .brokenPipe, .nameTooLong, .tooManyLinks]

/-- The cause with a given number. -/
def ofCode? (n : Nat) : Option Errno := all.find? (·.code = n)

end Errno

/-- A cause without a number has its text only. -/
inductive Fault where
  | os (e : Errno)
  | nulInPath
  | nulInArgument
  | notText
  | other (text : String)
  deriving DecidableEq, Repr

namespace Fault

def message : Fault → String
  | .os e          => e.text ++ " (os error " ++ toString e.code ++ ")"
  | .nulInPath     => "file name contained an unexpected NUL byte"
  | .nulInArgument => "nul byte found in provided data"
  | .notText       => "stream did not contain valid UTF-8"
  | .other text    => text

end Fault

end Assay
