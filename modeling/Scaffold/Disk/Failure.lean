/-! Why an operation on files fails, and the wording. -/

namespace Scaffold.Disk

inductive Failure where
  | notFound
  | exists
  | notDirectory
  | isDirectory
  | notEmpty
  | nameTooLong
  | nulInName
  | invalidArgument
  /-- the content is not UTF-8 -/
  | notText
  | other (message : String)
  deriving DecidableEq, Repr

def Failure.message : Failure → String
  | .notFound => "No such file or directory (os error 2)"
  | .exists => "File exists (os error 17)"
  | .notDirectory => "Not a directory (os error 20)"
  | .isDirectory => "Is a directory (os error 21)"
  | .notEmpty => "Directory not empty (os error 39)"
  | .nameTooLong => "File name too long (os error 36)"
  | .nulInName => "file name contained an unexpected NUL byte"
  | .invalidArgument => "Invalid argument (os error 22)"
  | .notText => "stream did not contain valid UTF-8"
  | .other message => message

end Scaffold.Disk
