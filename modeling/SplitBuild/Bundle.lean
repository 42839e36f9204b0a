import SplitBuild.Json.Record
/-!
# Bundles

A bundle is a unit of output that the bundler emits, with the bundles it
depends on and those it asks to fetch ahead of time.
-/

namespace SplitBuild

open Json

/-- A unit of output. -/
structure Bundle where
  id : String
  name : Option String
  modules : List String
  /-- The bundle carries the module runtime. -/
  hasRuntime : Bool
  /-- Bundles that are loaded before this one runs. -/
  dependencies : List String
  /-- Bundles to fetch ahead of time. -/
  prefetch : List String
  deriving DecidableEq, Repr

namespace Bundle

/-- The bundle with an id, which names it. -/
def ofId (id : String) : Bundle :=
  { id, name := some id, modules := [], hasRuntime := false, dependencies := [], prefetch := [] }

/-- The fields of a bundle in JSON, in order. -/
def fieldNames : List String := ["id", "name", "modules", "hasRuntime", "dependencies", "prefetch"]

/-- A bundle in JSON. -/
def value (b : Bundle) : Value :=
  .object [("id", .string b.id), ("name", .ofOption b.name), ("modules", .ofStrings b.modules),
    ("hasRuntime", .bool b.hasRuntime), ("dependencies", .ofStrings b.dependencies),
    ("prefetch", .ofStrings b.prefetch)]

/-- A bundle read from JSON. -/
def ofDocument? (doc : Document) : Option Bundle := do
  let fields ← Record.ofDocument? .strict fieldNames doc
  let id ← fields.required "id" Document.string?
  let name ← fields.optional "name" none (Document.nullable? Document.string?)
  let modules ← fields.optional "modules" [] (Document.list? Document.string?)
  let hasRuntime ← fields.optional "hasRuntime" false Document.bool?
  let dependencies ← fields.optional "dependencies" [] (Document.list? Document.string?)
  let prefetch ← fields.optional "prefetch" [] (Document.list? Document.string?)
  return { id, name, modules, hasRuntime, dependencies, prefetch }

end Bundle

/-- The bundles of a build, in order. -/
structure BundleGraph where
  bundles : List Bundle
  deriving DecidableEq, Repr

namespace BundleGraph

/-- The first bundle with an id. -/
def get? (g : BundleGraph) (id : String) : Option Bundle := g.bundles.find? fun b => b.id = id

/-- A bundle graph in JSON. -/
def value (g : BundleGraph) : Value := .array (g.bundles.map Bundle.value)

/-- A bundle graph read from JSON. -/
def ofDocument? (doc : Document) : Option BundleGraph :=
  (Document.list? Bundle.ofDocument? doc).map .mk

end BundleGraph

end SplitBuild
