import SplitBuild.Bundle
import SplitBuild.FileStore
import SplitBuild.Json.Reader
import SplitBuild.Module.Graph
/-!
# Build graphs

The bundler exports the graph of its modules and that of its bundles in
one file.
-/

namespace SplitBuild

open Json

/-- The graphs that the bundler exports. -/
structure BuildGraph where
  modules : ModuleGraph
  bundles : BundleGraph
  deriving DecidableEq, Repr

namespace BuildGraph

/-- The fields of a build graph in JSON, in order. -/
def fieldNames : List String := ["modules", "bundles"]

/-- A build graph read from JSON. -/
def ofDocument? (doc : Document) : Option BuildGraph := do
  let fields ← Record.ofDocument? .strict fieldNames doc
  let modules ← fields.optional "modules" [] (Document.list? Module.ofDocument?)
  let bundles ← fields.optional "bundles" ⟨[]⟩ BundleGraph.ofDocument?
  return ⟨⟨modules⟩, bundles⟩

/-- The failure of a file that holds no build graph. -/
def unparsed (path : FilePath) : Failure :=
  (Failure.ofMessage Document.syntaxNotice).within
    ("Failed to parse the build graph " ++ path.text)

variable {m : Type → Type} [Monad m] [FileStore m]

/-- The build graph in a file. -/
def load (path : FilePath) : ExceptT Failure m BuildGraph := do
  let text ← FileStore.orStop (FileStore.readText path)
    (Failure.whileTrying ("Failed to read the build graph " ++ path.text))
  match (Document.read? text).bind ofDocument? with
  | some g => return g
  | none => throw (unparsed path)

end BuildGraph

end SplitBuild
