import Assay.Utility.Escapes

/-!
# Utility — echo

Prints its arguments with blanks between them. The program reads escapes only if told so, the part
of the shell always; the shell knows one option.
-/

namespace Assay.Echo

/-- Whether an argument of the program holds options. -/
def isOption (a : String) : Bool :=
  match a.toList with
  | '-' :: c :: r => (c :: r).all fun d => ['n', 'e', 'E'].contains d
  | _             => false

/-- The command. -/
def run (c : Caller) (args : List String) : Effect :=
  let (options, words) : List String × List String :=
    match c, args with
    | .shell _, "-n" :: r => (["-n"], r)
    | .shell _, args      => ([], args)
    | .program _, args    => (args.takeWhile isOption, args.dropWhile isOption)
  let letters := options.flatMap String.toList
  let escapes :=
    c.isShell || ((letters.filter fun d => d = 'e' || d = 'E').getLast? == some 'e')
  let text := String.intercalate " " words
  let (cs, stop) := if escapes then (Escapes.echo c).expandText text else (text.toList, none)
  .out (String.ofList (if stop.isSome || letters.contains 'n' then cs else cs ++ ['\n']))

end Assay.Echo
