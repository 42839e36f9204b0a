import SplitBuild.Bundle
import SplitBuild.Context
import SplitBuild.Diagnostic
/-!
# Validation of the bundle graph

A bundle may depend on bundles of its own package and on the shared ones.
Every other dependency is reported, and so is every bundle that asks to
fetch others ahead of time. Bundles that carry the runtime are exempt.
The graph itself is never changed.
-/

namespace SplitBuild

namespace BundleGraph

/-- The stage that validates bundles. -/
def validationOrigin : String := "validate-bundles"

/-- The dependencies of a bundle that reach into another package, each
once and in order. -/
def crossDependencies (ctx : Context) (b : Bundle) : List String :=
  (sortedNames (b.dependencies.filter fun id => id ≠ b.id && !ctx.isSharedBundle id)).filter
    fun id => ctx.classify id ≠ ctx.classify b.id

/-- The report of a dependency that reaches into another package. -/
def crossDependency (b : Bundle) (id : String) : Diagnostic where
  kind := .crossSubpackageDependency
  message := "The bundle is not allowed to have cross subpackage dependencies, \""
    ++ b.id ++ "\" -> \"" ++ id ++ "\""
  origin := some validationOrigin
  subjects := [b.id, id]
  hints := []

/-- The report of a bundle that asks to fetch others ahead of time. -/
def prefetchUse (b : Bundle) : Diagnostic where
  kind := .prefetch
  message := "Prefetch is not supported by the host, but prefetch bundles found ["
    ++ ", ".intercalate (b.prefetch.map fun id => "\"" ++ id ++ "\"")
    ++ "] in bundle \"" ++ b.id ++ "\""
  origin := some validationOrigin
  subjects := [b.id]
  hints := []

/-- The violations of one bundle. -/
def violations (ctx : Context) (b : Bundle) : List Diagnostic :=
  if b.hasRuntime then []
  else (crossDependencies ctx b).map (crossDependency b)
    ++ if b.prefetch.isEmpty then [] else [prefetchUse b]

/-- The violations of the bundles of a graph, in order. -/
def validate (ctx : Context) (g : BundleGraph) : List Diagnostic :=
  g.bundles.flatMap (violations ctx)

end BundleGraph

end SplitBuild
