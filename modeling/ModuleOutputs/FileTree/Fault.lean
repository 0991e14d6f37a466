/-!
Why the file system refuses an operation.
-/

namespace ModuleOutputs

/-- The reason for which a file cannot be found, read or written. -/
inductive FileFault where
  | notFound
  | notADirectory
  | isADirectory
  | nameTooLong
  | tooManyLinks
  | unreadable
  | alreadyThere
  /-- A name with a NUL character names no file. -/
  | nulInName
  /-- The content is not text. -/
  | notText
  /-- A refusal known by its text, which says whether it is for lack of permission. -/
  | reported (denied : Bool) (text : String)
deriving Repr, DecidableEq

namespace FileFault

/-- The system's own text for a fault. -/
def text : FileFault → String
  | .notFound => "No such file or directory (os error 2)"
  | .notADirectory => "Not a directory (os error 20)"
  | .isADirectory => "Is a directory (os error 21)"
  | .nameTooLong => "File name too long (os error 36)"
  | .tooManyLinks => "Too many levels of symbolic links (os error 40)"
  | .unreadable => "Input/output error (os error 5)"
  | .alreadyThere => "File exists (os error 17)"
  | .nulInName => "file name contained an unexpected NUL byte"
  | .notText => "stream did not contain valid UTF-8"
  | .reported _ text => text

/-- Whether permission is what is lacking. -/
def isDenied : FileFault → Bool
  | .reported denied _ => denied
  | _ => false

end FileFault

end ModuleOutputs
