/-!
# Faults of file operations
-/

namespace RoutingRules.Files

/-- Why a file operation failed. -/
inductive Fault where
  | notFound
  | permissionDenied
  | alreadyExists
  | notADirectory
  | isADirectory
  | nameTooLong
  | nulInName
  | nulInCommand
  | invalidText
deriving DecidableEq, Repr

/-- The wording of a fault, with the number that the operating system has for it. -/
def Fault.message : Fault → String
  | .notFound => "No such file or directory (os error 2)"
  | .permissionDenied => "Permission denied (os error 13)"
  | .alreadyExists => "File exists (os error 17)"
  | .notADirectory => "Not a directory (os error 20)"
  | .isADirectory => "Is a directory (os error 21)"
  | .nameTooLong => "File name too long (os error 36)"
  | .nulInName => "file name contained an unexpected NUL byte"
  | .nulInCommand => "nul byte found in provided data"
  | .invalidText => "stream did not contain valid UTF-8"

end RoutingRules.Files
