/-!
# Why a file operation fails

The causes that the file operations of this library report, with the texts that the operating system
gives them.
-/

namespace CoverageReplay

/-- Why a file operation failed. -/
inductive FileFault where
  | notFound
  | alreadyExists
  | notDirectory
  | isDirectory
  | nameTooLong
  /-- The bytes of a text file are not UTF-8. -/
  | notText
  /-- A file to copy from is no regular file. -/
  | notRegular
  /-- A path holds the character NUL. -/
  | nulInPath
  deriving DecidableEq, Repr, Inhabited

namespace FileFault

/-- The text shown for the fault. -/
def message : FileFault → String
  | notFound => "No such file or directory (os error 2)"
  | alreadyExists => "File exists (os error 17)"
  | notDirectory => "Not a directory (os error 20)"
  | isDirectory => "Is a directory (os error 21)"
  | nameTooLong => "File name too long (os error 36)"
  | notText => "stream did not contain valid UTF-8"
  | notRegular => "the source path is neither a regular file nor a symlink to a regular file"
  | nulInPath => "file name contained an unexpected NUL byte"

end FileFault

end CoverageReplay
