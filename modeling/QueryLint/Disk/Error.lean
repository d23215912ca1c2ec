/-
  QueryLint.Disk.Error

  Why an operation on files fails.
-/
namespace QueryLint

/-- Why an operation on files fails. -/
inductive SystemError where
  | notFound
  | alreadyExists
  | notDirectory
  | isDirectory
  | nameTooLong
  | tooManyLinks
  | noSpace
  | outOfMemory
  | nulInName
  | notUtf8
  /-- Another failure, in the words of the system. -/
  | other (text : String)
  deriving DecidableEq, Repr

/-- What is reported about a failed operation. -/
def SystemError.message : SystemError → String
  | notFound => "No such file or directory (os error 2)"
  | alreadyExists => "File exists (os error 17)"
  | notDirectory => "Not a directory (os error 20)"
  | isDirectory => "Is a directory (os error 21)"
  | nameTooLong => "File name too long (os error 36)"
  | tooManyLinks => "Too many levels of symbolic links (os error 40)"
  | noSpace => "No space left on device (os error 28)"
  | outOfMemory => "Cannot allocate memory (os error 12)"
  | nulInName => "file name contained an unexpected NUL byte"
  | notUtf8 => "stream did not contain valid UTF-8"
  | other text => text

end QueryLint
