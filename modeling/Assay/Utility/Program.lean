import Assay.Utility.Cat
import Assay.Utility.Chmod
import Assay.Utility.Condition
import Assay.Utility.Cp
import Assay.Utility.Echo
import Assay.Utility.Printf
import Assay.Utility.Sleep

/-!
# Utility — the programs there are

The utilities that are programs of their own, by name. The file of each says its name.

* `Utility.program?`: what a program with some name does.
-/

namespace Assay.Utility

/-- A program that only prints. -/
def printing (run : Caller → List String → Effect) : Program := fun name args =>
  perform name (run (.program name) args)

/-- The programs, by name. -/
def programs : List (String × Program) :=
  [("cat", Cat.program), ("cp", Cp.program), ("chmod", Chmod.program), ("sleep", Sleep.program),
   ("true", fun _ _ => pure 0), ("false", fun _ _ => pure 1), ("printf", printing Printf.run),
   ("echo", printing Echo.run)]

/-- The content of a program's file. -/
def content (name : String) : Bytes := Image.native (" utility " ++ name ++ "\n")

/-- What the program in a file does. -/
def program? (f : File) : Option Program :=
  (programs.find? fun p => content p.1 == f.content).map (·.2)

end Assay.Utility
