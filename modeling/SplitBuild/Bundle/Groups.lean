import SplitBuild.Context
/-!
# Split groups

The bundler collects placed modules into vendor bundles, one for the main
package and one for each subpackage. A split group names one of them and
ranks it; the options around the groups lift the limits on size and
number that would keep small modules apart.
-/

namespace SplitBuild

open Json

/-- A vendor bundle that the bundler collects modules into. -/
structure SplitGroup where
  /-- The bundle the group becomes. -/
  name : String
  priority : Int
  /-- The limits on size and number do not hold for the group. -/
  enforce : Bool
  deriving DecidableEq, Repr

/-- How the bundler splits modules into bundles. -/
structure SplitOptions where
  minSize : Nat
  maxSize : Nat
  minChunks : Nat
  maxAsyncRequests : Nat
  maxInitialRequests : Nat
  automaticNameDelimiter : String
  automaticNameMaxLength : Nat
  groups : Keyed SplitGroup
  deriving DecidableEq, Repr

namespace SplitOptions

/-- The key of the group of a package. -/
def groupKey : Package → String
  | .main => "commons"
  | .subpackage root => root ++ "/commons"

/-- The group of a package. The main package comes last. -/
def groupOf (ctx : Context) (package : Package) : SplitGroup where
  name := ctx.vendorBundleFor package
  priority := if package.isMain then -20 else 0
  enforce := true

/-- The packages of a build: the main one, then the subpackages in the
order of their declarations. -/
def packages (ctx : Context) : List Package :=
  .main :: ctx.subpackages.roots.map .subpackage

/-- The options for a build. -/
def ofContext (ctx : Context) : SplitOptions where
  minSize := 0
  maxSize := 0
  minChunks := 1
  maxAsyncRequests := 5
  maxInitialRequests := 3
  automaticNameDelimiter := "~"
  automaticNameMaxLength := 30
  groups := Keyed.ofList ((packages ctx).map fun p => (groupKey p, groupOf ctx p))

end SplitOptions

/-! ## In JSON -/

namespace SplitGroup

/-- A group in JSON. -/
def value (g : SplitGroup) : Value :=
  .object [("name", .string g.name), ("priority", .number (.int g.priority)),
    ("enforce", .bool g.enforce)]

end SplitGroup

namespace SplitOptions

/-- A natural in JSON. -/
def natural (n : Nat) : Value := .number (.int n)

/-- The options in JSON. -/
def value (o : SplitOptions) : Value :=
  .object [("minSize", natural o.minSize), ("maxSize", natural o.maxSize),
    ("minChunks", natural o.minChunks), ("maxAsyncRequests", natural o.maxAsyncRequests),
    ("maxInitialRequests", natural o.maxInitialRequests),
    ("automaticNameDelimiter", .string o.automaticNameDelimiter),
    ("automaticNameMaxLength", natural o.automaticNameMaxLength),
    ("cacheGroups", .object (o.groups.map fun e => (e.1, e.2.value)))]

end SplitOptions

end SplitBuild
