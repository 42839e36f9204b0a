import SplitBuild.FilePath
import SplitBuild.Options
/-!
# Build contexts

A context is what every stage of one build reads and none changes: the
declared subpackages, the options, and the names and extensions of what
the bundler emits.
-/

namespace SplitBuild

/-- Which rules place the modules. -/
inductive Policy where
  /-- The path of a module alone. -/
  | strict
  /-- The bundles that use a module and the references to it. -/
  | compat
  deriving DecidableEq, Repr

/-- What the stages of a build read. -/
structure Context where
  /-- The directory of the pages and components. -/
  sourceRoot : FilePath
  subpackages : SubpackageSet
  options : Options
  /-- Component tags that every page may use. -/
  globalTags : List String
  runtimeBundle : String
  vendorBundle : String
  /-- The tag of placeholders that no one declared. -/
  placeholderTag : String
  templateExtension : String
  manifestExtension : String
  scriptExtension : String
  /-- The asset that is the root manifest. -/
  appManifest : String

namespace Context

/-- The context of a build with the usual names and nothing declared. -/
def default : Context where
  sourceRoot := ⟨"src"⟩
  subpackages := .empty
  options := .default
  globalTags := []
  runtimeBundle := "common/runtime"
  vendorBundle := "common/vendor"
  placeholderTag := "view"
  templateExtension := ".wxml"
  manifestExtension := ".json"
  scriptExtension := ".js"
  appManifest := "app.json"

/-- The policy the options ask for. -/
def policy (ctx : Context) : Policy := if ctx.options.strict then .strict else .compat

/-- The package that a name belongs to. -/
def classify (ctx : Context) (name : String) : Package := ctx.subpackages.classify name

/-- Every bundle may depend on this one. -/
def isSharedBundle (ctx : Context) (id : String) : Bool :=
  id = ctx.runtimeBundle || id = ctx.vendorBundle

/-- The vendor bundle of a package. -/
def vendorBundleFor (ctx : Context) : Package → String
  | .main => ctx.vendorBundle
  | .subpackage root => root ++ "/" ++ ctx.vendorBundle

end Context

end SplitBuild
