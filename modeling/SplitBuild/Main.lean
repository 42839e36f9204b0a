import SplitBuild.Command
/-!
# The program

The command on the files of the machine: the file store over `IO`, and
what is shown of an outcome.
-/

namespace SplitBuild

namespace Machine

/-- The fault that an error of the machine is. -/
def faultOf (e : IO.Error) : FileFault :=
  match e with
  | .noFileOrDirectory .. => .noFile
  | e => .other (toString e)

/-- An action whose errors are faults. -/
def attempt {α : Type} (action : IO α) : IO (Except FileFault α) := do
  match ← action.toBaseIO with
  | .ok a => return .ok a
  | .error e => return .error (faultOf e)

/-- The files at and below a path. -/
partial def filesUnder (p : FilePath) : IO (List FilePath) := do
  let place := (← IO.currentDir) / p.text
  match (← place.symlinkMetadata).type with
  | .file => return [p]
  | .dir =>
    let entries ← place.readDir
    let found ← entries.toList.mapM fun e => filesUnder (p.join ⟨e.fileName⟩)
    return found.flatten
  | _ => return []

/-- Paths in the order of their components. -/
def inOrder (ps : List FilePath) : List FilePath :=
  ps.mergeSort fun a b => (compare a.components b.components).isLE

/-- Puts the directories of a path on the machine. -/
def makeDirectories (p : FilePath) : IO Unit := IO.FS.createDirAll p.text

/-- Puts a file on the machine, with the directories above it. -/
def writeFile (p : FilePath) (contents : ByteArray) : IO Unit := do
  if let some directory := p.parent? then
    unless directory.text.isEmpty do makeDirectories directory
  IO.FS.writeBinFile p.text contents

/-- A file stands at a path. -/
def isFile (p : FilePath) : IO Bool := do
  let place := (← IO.currentDir) / p.text
  return match ← place.metadata.toBaseIO with
    | .ok data => data.type == .file
    | .error _ => false

instance : FileStore IO where
  walk p := attempt (inOrder <$> filesUnder p)
  read p := attempt (IO.FS.readBinFile p.text)
  write p contents := attempt (writeFile p contents)
  createDirectories p := attempt (makeDirectories p)
  isFile := isFile

end Machine

/-- The text that tells how the command is used. -/
def Command.usage : String :=
  "Usage: split-build [OPTIONS] --dist <DIST> --graph <GRAPH>\n\n"
    ++ "  -p, --project-root <DIR>  the project, by default the working directory\n"
    ++ "  -d, --dist <DIR>          the output directory of the bundler\n"
    ++ "  -g, --graph <FILE>        the build graph the bundler exported\n"
    ++ "  -c, --config <FILE>       the options file\n"
    ++ "      --strict              place modules by their path alone\n"
    ++ "      --placements <FILE>   write where every module goes\n"
    ++ "      --patch-framework     patch the framework before the build\n"
    ++ "      --strict-patch        fail where a patch does not apply\n"
    ++ "  -h, --help                show this text\n"

end SplitBuild

open SplitBuild in
def main (args : List String) : IO UInt32 := do
  let outcome : Command.Outcome ← Command.start (← IO.getEnv LogTarget.settingName) args
  match outcome with
  | .built report => (← IO.getStderr).putStr (Diagnostic.displayAll report.diagnostics)
  | .help => (← IO.getStdout).putStr Command.usage
  | .misuse => (← IO.getStderr).putStr Command.usage
  | .badLogSetting item => (← IO.getStderr).putStrLn (LogTarget.invalidItem item)
  return outcome.exitCode.toUInt32
