import SplitBuild.FilePath
import SplitBuild.Failure
/-!
# File stores

What the program asks of a place that holds files: the files below a
directory, the contents of one, whether there is one, and to write. The
program is written once over any store. An operation that fails leaves
its fault in the result and the store as the operation left it.
-/

namespace SplitBuild

/-- Why an operation on a file failed. -/
inductive FileFault where
  /-- Nothing stands at the path. -/
  | noFile
  /-- No directory stands at the path. -/
  | noDirectory
  /-- A directory stands at the path. -/
  | isDirectory
  /-- The contents are not UTF-8. -/
  | notText
  /-- The store gives a reason of its own. -/
  | other (message : String)
  deriving DecidableEq, Repr

namespace FileFault

/-- The sentence that tells a fault. -/
def message : FileFault → String
  | noFile => "File not found"
  | noDirectory => "Directory not found"
  | isDirectory => "Path is a directory"
  | notText => "Unable to read file as string"
  | other message => message

end FileFault

/-- A place that holds files. -/
class FileStore (m : Type → Type) where
  /-- The files below a directory, in the order of their components. -/
  walk : FilePath → m (Except FileFault (List FilePath))
  /-- The contents of a file. -/
  read : FilePath → m (Except FileFault ByteArray)
  /-- Puts a file at a path, with the directories above it. -/
  write : FilePath → ByteArray → m (Except FileFault Unit)
  /-- Puts a directory at a path, with the directories above it. -/
  createDirectories : FilePath → m (Except FileFault Unit)
  /-- A file stands at a path. -/
  isFile : FilePath → m Bool

namespace FileStore

variable {m : Type → Type} [Monad m] [FileStore m]

/-- The text of some contents. -/
def textOf (contents : ByteArray) : Except FileFault String :=
  match String.fromUTF8? contents with
  | some s => .ok s
  | none => .error .notText

/-- The text of a file. -/
def readText (p : FilePath) : m (Except FileFault String) := do
  return (← read p).bind textOf

/-- The result of an operation as a step of a program that stops with the
fault, which `fail` turns into a failure. -/
def orStop {α : Type} (result : m (Except FileFault α)) (fail : FileFault → Failure) :
    ExceptT Failure m α :=
  ExceptT.mk do
    match ← result with
    | .ok a => return .ok a
    | .error fault => return .error (fail fault)

end FileStore

namespace Failure

/-- The failure that a fault is. -/
def ofFault (fault : FileFault) : Failure := .ofMessage fault.message

/-- The failure that a fault is while something was tried. -/
def whileTrying (context : String) (fault : FileFault) : Failure :=
  (ofFault fault).within context

end Failure

end SplitBuild
