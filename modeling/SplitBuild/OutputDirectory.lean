import SplitBuild.AssetTable
import SplitBuild.FileStore
/-!
# The output directory

The bundler emits its assets into a directory. They are loaded into a
table, and what the stages change in the table is written back.
-/

namespace SplitBuild

namespace OutputDirectory

variable {m : Type → Type} [Monad m] [FileStore m]

/-- The asset in a file; none where the file is not below the directory as
it is written. -/
def loadAsset (dist file : FilePath) : ExceptT Failure m (Option (String × ByteArray)) :=
  match file.nameUnder? dist with
  | none => return none
  | some name => do
    let contents ← FileStore.orStop (FileStore.read file)
      (Failure.whileTrying ("Failed to read " ++ file.text))
    return some (name, contents)

/-- The assets in a directory, by their paths from it. -/
def load (dist : FilePath) : ExceptT Failure m AssetTable := do
  let files ← FileStore.orStop (FileStore.walk dist)
    (Failure.whileTrying ("Failed to list the output directory " ++ dist.text))
  let assets ← files.mapM (loadAsset dist)
  return .ofList (assets.filterMap id)

/-- The assets of a table whose contents another one does not have. -/
def changed (before after : AssetTable) : List (String × ByteArray) :=
  after.toList.filter fun a => !before.holds a.1 a.2

/-- Writes an asset to its file. -/
def writeAsset (dist : FilePath) (asset : String × ByteArray) : ExceptT Failure m Unit := do
  let path := dist.join ⟨asset.1⟩
  if let some directory := path.parent? then
    FileStore.orStop (FileStore.createDirectories directory) Failure.ofFault
  FileStore.orStop (FileStore.write path asset.2)
    (Failure.whileTrying ("Failed to write " ++ path.text))

/-- Writes the assets that changed and tells their names, in order. -/
def writeChanged (dist : FilePath) (before after : AssetTable) :
    ExceptT Failure m (List String) := do
  let assets := changed before after
  assets.forM (writeAsset dist)
  return assets.map (·.1)

end OutputDirectory

end SplitBuild
