import ImportSweep.Files.Walk

/-!
# Programs that cannot be started

A program named by a path is looked up like a file, and one named by a bare name among the installed
programs. None of the files of a tree may be run.
-/

namespace ImportSweep.Files

/-- Why a program that is not installed cannot be started. -/
def Entry.launchError (top : Entry) (program : String) : FileError :=
  if program.toList.contains '/' then
    match top.resolve .followed program with
    | .ok _ => .notPermitted
    | .error cause => cause
  else if program = "." || program = ".." then .notPermitted
  else if nameLimit < program.utf8ByteSize then .nameTooLong
  else .notFound

end ImportSweep.Files
