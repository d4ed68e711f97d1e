import Relocation.Text.Basic

/-!
# What can go wrong with a file

Most failures are the operating system's and carry its number; four are found before it is asked or after it
answered.
-/

namespace Relocation

/-- The reasons an operation on files fails. -/
inductive FileError where
  | noEntry
  /-- The process has no right to what it wants. -/
  | accessDenied
  | alreadyExists
  | notDirectory
  | isDirectory
  | invalidArgument
  /-- Nothing can be changed on a file system that is there for reading only. -/
  | readOnly
  | nameTooLong
  | linkLoop
  /-- A path with a zero byte is not handed to the operating system. -/
  | zeroByte
  /-- A chain of links was followed too far. -/
  | chainTooLong
  /-- The content of a file is not text. -/
  | notText
  /-- No home directory is known to look in. -/
  | homeless
  deriving DecidableEq, Repr

/-- A message of the operating system with its number. -/
def systemMessage (words : String) (number : Nat) : Text :=
  words.toList ++ " (os error ".toList ++ decimal number ++ ")".toList

def FileError.message : FileError → Text
  | noEntry => systemMessage "No such file or directory" 2
  | accessDenied => systemMessage "Permission denied" 13
  | alreadyExists => systemMessage "File exists" 17
  | notDirectory => systemMessage "Not a directory" 20
  | isDirectory => systemMessage "Is a directory" 21
  | invalidArgument => systemMessage "Invalid argument" 22
  | readOnly => systemMessage "Read-only file system" 30
  | nameTooLong => systemMessage "File name too long" 36
  | linkLoop => systemMessage "Too many levels of symbolic links" 40
  | zeroByte => "file name contained an unexpected NUL byte".toList
  | chainTooLong => "too many levels of symbolic links".toList
  | notText => "stream did not contain valid UTF-8".toList
  | homeless => "$HOME must be set".toList

end Relocation
