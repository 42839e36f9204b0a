import SplitBuild.Context
import SplitBuild.FileStore
import SplitBuild.Json.Relaxed
import SplitBuild.Manifest.Fragment
import SplitBuild.Project.Routing
/-!
# Projects

A project is a directory with sources below it. Its configuration is read
from a file store: the routing declaration, the options, and the fragment
files beside the components. What is wrong with a file is told with its
path; the first fault ends the reading.
-/

namespace SplitBuild

open Json

/-- A directory with the sources of a program below it. -/
structure Project where
  root : FilePath
  /-- The directory of the pages and components. -/
  sourceRoot : FilePath
  deriving DecidableEq, Repr

/-- What a build reads before it starts. -/
structure Configuration where
  context : Context
  fragments : FragmentTable

namespace Project

/-- The project in a directory, with its sources in the usual place. -/
def ofRoot (root : FilePath) : Project := ⟨root, root.join ⟨"src"⟩⟩

/-! ## Files in relaxed JSON -/

/-- The stage that reads the configuration. -/
def origin : String := "config"

/-- A report on a file of the configuration. -/
def fileReport (kind : Diagnostic.Kind) (attempt : String) (path : FilePath) (reason : String) :
    Diagnostic where
  kind := kind
  message := "Failed to " ++ attempt ++ " " ++ path.text ++ ": " ++ reason
  origin := some origin
  subjects := [path.text]
  hints := []

/-- The report of a file that is not there or no text. -/
def unreadFile (path : FilePath) (fault : FileFault) : Diagnostic :=
  fileReport .notFound "read" path fault.message

/-- The report of a file that does not hold what it should. -/
def unparsedFile (path : FilePath) : Diagnostic :=
  fileReport .parseError "parse" path Document.syntaxNotice

variable {m : Type → Type} [Monad m] [FileStore m]

/-- What a file in relaxed JSON holds. -/
def readRelaxed {α : Type} (path : FilePath) (read? : Document → Option α) :
    ExceptT Failure m α := do
  let text ← FileStore.orStop (FileStore.readText path)
    fun fault => .ofDiagnostic (unreadFile path fault)
  match (Document.readRelaxed? text).bind read? with
  | some a => return a
  | none => throw (.ofDiagnostic (unparsedFile path))

/-! ## Parts of the configuration -/

/-- The routing declaration of a project. -/
def routing (p : Project) : ExceptT Failure m Routing :=
  readRelaxed (p.sourceRoot.join ⟨"pages.json"⟩) Routing.ofDocument?

/-- The file that holds the options of a project. -/
def optionsFile (p : Project) : FilePath := p.root.join ⟨"subpack.config.json5"⟩

/-- The options of a project. A file that is asked for must be there; the
usual one need not. -/
def options (p : Project) (file : Option FilePath) : ExceptT Failure m Options := do
  match file with
  | some path => readRelaxed path (Options.ofDocument? .relaxed)
  | none =>
    if ← (FileStore.isFile p.optionsFile : m Bool) then
      readRelaxed p.optionsFile (Options.ofDocument? .relaxed)
    else return .default

/-- The name of a fragment file. -/
def fragmentFile : String := "async.component.json"

/-- A path leads to a fragment file. -/
def isFragmentFile (name : String) : Bool :=
  (Path.segments name).getLast? = some fragmentFile.toList

/-- A table that is being built, after a file below the source root; a file
that is no fragment file adds nothing to it. -/
def addFragments (p : Project) (builder : FragmentTable.Builder) (file : FilePath) :
    ExceptT Failure m FragmentTable.Builder :=
  match file.nameUnder? p.sourceRoot with
  | none => return builder
  | some name =>
    if isFragmentFile name then do
      let text ← FileStore.orStop (FileStore.readText file) Failure.ofFault
      match builder.addFile (Path.dirname name) name text with
      | (.ok (), builder) => return builder
      | (.error fault, _) => throw fault
    else return builder

/-- The fragments of a project, from all files below its source root. -/
def fragments (p : Project) : ExceptT Failure m FragmentTable := do
  let files ← FileStore.orStop (FileStore.walk p.sourceRoot) Failure.ofFault
  let builder ← files.foldlM p.addFragments .empty
  match builder.finish with
  | .ok table => return table
  | .error d => throw (.ofDiagnostic d)

/-- The context of a build of a project. -/
def context (p : Project) (routing : Routing) (options : Options) : Context :=
  { Context.default with
    sourceRoot := p.sourceRoot
    subpackages := .ofDeclared routing.subPackages
    globalTags := routing.globalTags
    options }

/-- The options with another placement policy, where one is asked for. -/
def overrideStrict (options : Options) (strict : Option Bool) : Options :=
  { options with strict := strict.getD options.strict }

/-- The configuration of a project. -/
def load (p : Project) (optionsFile : Option FilePath) (strict : Option Bool) :
    ExceptT Failure m Configuration := do
  let routing ← p.routing
  let options ← p.options optionsFile
  let fragments ← p.fragments
  return ⟨p.context routing (overrideStrict options strict), fragments⟩

end Project

end SplitBuild
