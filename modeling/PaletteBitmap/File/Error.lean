/-!
# Failures of file operations

What can go wrong when a file is read, made, moved or removed, with the text the operating
system has for it.
-/

namespace PaletteBitmap

inductive FileError where
  | notFound
  | notADirectory
  | isADirectory
  | tooManyLinks
  /-- The path ends in a name that stands for a directory in use. -/
  | busy
  | permissionDenied
  /-- A path or a name in it has too many bytes. -/
  | nameTooLong
  /-- A path holds a zero, which no path can. -/
  | zeroInPath
  /-- The words of a command hold a zero. -/
  | zeroInCommand
  /-- A text file holds bytes that are no text. -/
  | invalidText
  /-- Any other failure, with its text. -/
  | other (text : String)
  deriving DecidableEq, Repr

namespace FileError

def reason : FileError → String
  | notFound => "No such file or directory"
  | notADirectory => "Not a directory"
  | isADirectory => "Is a directory"
  | tooManyLinks => "Too many levels of symbolic links"
  | busy => "Device or resource busy"
  | permissionDenied => "Permission denied"
  | nameTooLong => "File name too long"
  | zeroInPath => "file name contained an unexpected NUL byte"
  | zeroInCommand => "nul byte found in provided data"
  | invalidText => "stream did not contain valid UTF-8"
  | other text => text

/-- The number that the operating system has for a failure, if it is one of its own. -/
def number? : FileError → Option Nat
  | notFound => some 2
  | notADirectory => some 20
  | isADirectory => some 21
  | tooManyLinks => some 40
  | busy => some 16
  | permissionDenied => some 13
  | nameTooLong => some 36
  | zeroInPath | zeroInCommand | invalidText | other _ => none

def message (e : FileError) : String :=
  match e.number? with
  | some n => s!"{e.reason} (os error {n})"
  | none => e.reason

end FileError

end PaletteBitmap
