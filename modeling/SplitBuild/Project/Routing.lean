import SplitBuild.Subpackage
/-!
# Routing declarations

The routing declaration of a project lists its pages and subpackages and
names the components that every page may use.
-/

namespace SplitBuild

open Json

/-- Where the pages of a project are, and what they share. -/
structure Routing where
  pages : List Page
  subPackages : List Subpackage
  /-- The components every page may use, by tag. -/
  globalComponents : Object
  deriving DecidableEq

namespace Routing

/-- The component tags that every page may use. -/
def globalTags (r : Routing) : List String := r.globalComponents.keys

/-- The fields of a routing declaration in JSON, in order. -/
def fieldNames : List String := ["pages", "subPackages", "globalStyle"]

/-- The components of the style of all pages, read from JSON. -/
def globalStyle? (doc : Document) : Option Object := do
  let fields ← Record.ofDocument? .relaxed ["usingComponents"] doc
  fields.optional "usingComponents" [] (Document.entries? Document.value?)

/-- A routing declaration read from JSON. -/
def ofDocument? (doc : Document) : Option Routing := do
  let fields ← Record.ofDocument? .relaxed fieldNames doc
  let pages ← fields.optional "pages" [] (Document.list? Page.ofDocument?)
  let subPackages ← fields.optional "subPackages" [] (Document.list? Subpackage.ofDocument?)
  let globalComponents ← fields.optional "globalStyle" [] globalStyle?
  return { pages, subPackages, globalComponents }

end Routing

end SplitBuild
