import LittleComputer.Failure
import LittleComputer.FileTree

/-! # Trouble

What can end a run of the command before its work is done, the exit code it leads to and what the
user is told. -/

namespace LittleComputer
set_option autoImplicit false

/-- How a run of the command ends. -/
inductive ExitCode where
  | success
  | buildError
  | invalidArguments
  | internalError
  deriving DecidableEq, Repr

/-- The number that the system sees. -/
def ExitCode.number : ExitCode → Nat
  | success => 0
  | buildError => 1
  | invalidArguments => 2
  | internalError => 3

/-- What can end a run early. -/
inductive Trouble where
  /-- The program cannot be assembled. -/
  | program (failure : Failure)
  /-- A file cannot be read or written. -/
  | file (error : FileError)
  /-- A file holds no text. -/
  | undecodable (defect : Utf8.Defect)
  /-- A parameter is refused. -/
  | parameter (message : Text)
  /-- A failure of the tool that has no diagnostic. -/
  | general (message : Text)
  /-- Anything else. -/
  | unexpected (message : Text)
  deriving DecidableEq, Repr

namespace Trouble

/-- The trouble in words. -/
def message : Trouble → Text
  | program failure => failure.text
  | file error => error.message
  | undecodable defect => defect.message
  | parameter message => message
  | general message => message
  | unexpected message => message

/-- The exit code: wrong programs, wrong arguments with files that are missing or closed, and the
rest. -/
def exitCode : Trouble → ExitCode
  | program (.diagnostic _) => .buildError
  | program (.fault _) => .internalError
  | file ⟨.absent, _⟩ => .invalidArguments
  | file ⟨.forbidden, _⟩ => .invalidArguments
  | file _ => .internalError
  | undecodable _ => .internalError
  | parameter _ => .invalidArguments
  | general _ => .buildError
  | unexpected _ => .internalError

/-- The heading of a trace. -/
def traceHeading : Text :=
  "Traceback (most recent call last):".toList

/-- What the user is told, where `echo` shows a message. A wrong program may name the activity that
failed; an internal error of a talkative run has the heading of a trace behind it. -/
def report (echo : Text → Text) (verbose : Bool) (activity : Option Text) (trouble : Trouble) :
    Text :=
  match trouble.exitCode with
  | .buildError =>
    match activity with
    | some (c :: rest) => echo (c :: rest ++ " failed: ".toList ++ trouble.message)
    | _ => echo trouble.message
  | .invalidArguments => echo ("Error: ".toList ++ trouble.message)
  | _ =>
    echo ("Internal error: ".toList ++ trouble.message)
      ++ if verbose then traceHeading ++ ['\n'] else []

end Trouble

end LittleComputer
