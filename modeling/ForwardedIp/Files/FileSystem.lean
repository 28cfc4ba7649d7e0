/-!
# File systems

What the manager needs of a file system: asking whether a path exists, reading a file, and a few
effects that may fail. Writing the ledger is a list of such effects, so that a crash is a prefix
of the list.
-/
namespace ForwardedIp

/-- Why the operating system refused. -/
inductive IoFault where
  | notFound
  | exists
  | notADirectory
  | isADirectory
  | notEmpty
  | invalidArgument
  | nameTooLong
  /-- The path holds a zero character, which ends a path. -/
  | zeroInPath
  deriving DecidableEq

/-- The operating system's words, with its error number. A path with a zero character never gets
as far as the operating system. -/
def IoFault.message : IoFault → String
  | .notFound => "No such file or directory (os error 2)"
  | .exists => "File exists (os error 17)"
  | .notADirectory => "Not a directory (os error 20)"
  | .isADirectory => "Is a directory (os error 21)"
  | .notEmpty => "Directory not empty (os error 39)"
  | .invalidArgument => "Invalid argument (os error 22)"
  | .nameTooLong => "File name too long (os error 36)"
  | .zeroInPath => "file name contained an unexpected NUL byte"

inductive FileEffect where
  | createDirectories (path : String)
  /-- Opens a file for writing: creates it, or empties it. -/
  | create (path : String)
  | write (path : String) (content : ByteArray)
  | sync (path : String)
  /-- Copies a file. The target is emptied before the source is read. -/
  | copy (source target : String)
  /-- Moves a file over another one in one step. -/
  | rename (source target : String)

/-- A file system. -/
class FileSystem (F : Type) where
  contains : F → String → Bool
  read : F → String → Except IoFault ByteArray
  perform : FileEffect → F → Except IoFault Unit × F

/-- Text that was read from a file. -/
inductive TextFault where
  | io (fault : IoFault)
  | notUtf8

/-- Why a text could not be read, in words. -/
def TextFault.message : TextFault → String
  | .io fault => fault.message
  | .notUtf8 => "stream did not contain valid UTF-8"

/-- The content of a file as text. -/
def FileSystem.readText [FileSystem F] (f : F) (path : String) : Except TextFault String :=
  match FileSystem.read f path with
  | .error fault => .error (.io fault)
  | .ok content =>
      match String.fromUTF8? content with
      | some text => .ok text
      | none => .error .notUtf8

end ForwardedIp
