import SplitBuild.Subpackage
/-!
# Options

What the operator asks of a build: subpackages to append to the root
manifest, global components to drop from it, the flag for loading code
lazily, and the placement policy.
-/

namespace SplitBuild

open Json

/-- The options of a build. -/
structure Options where
  /-- Subpackages the root manifest lists in addition. -/
  appendSubPackages : List Subpackage
  /-- Global components the root manifest drops. -/
  deleteComponents : List String
  /-- None leaves the flag alone, the empty text clears it. -/
  lazyCodeLoading : Option String
  /-- Modules are placed by their path alone. -/
  strict : Bool
  deriving DecidableEq

namespace Options

/-- The options of an operator who asks for nothing. -/
def default : Options :=
  { appendSubPackages := [], deleteComponents := [], lazyCodeLoading := none, strict := false }

/-- The fields of the options in JSON, in order. -/
def fieldNames : List String :=
  ["appendSubPackages", "deleteComponents", "lazyCodeLoading", "strict"]

/-- The options in JSON. -/
def value (o : Options) : Value :=
  .object [("appendSubPackages", .array (o.appendSubPackages.map Subpackage.value)),
    ("deleteComponents", .ofStrings o.deleteComponents),
    ("lazyCodeLoading", .ofOption o.lazyCodeLoading), ("strict", .bool o.strict)]

/-- The options read from JSON. -/
def ofDocument? (dialect : Dialect) (doc : Document) : Option Options := do
  let fields ← Record.ofDocument? dialect fieldNames doc
  let appendSubPackages ←
    fields.optional "appendSubPackages" [] (Document.list? Subpackage.ofDocument?)
  let deleteComponents ← fields.optional "deleteComponents" [] (Document.list? Document.string?)
  let lazyCodeLoading ←
    fields.optional "lazyCodeLoading" none (Document.nullable? Document.string?)
  let strict ← fields.optional "strict" false Document.bool?
  return { appendSubPackages, deleteComponents, lazyCodeLoading, strict }

end Options

end SplitBuild
