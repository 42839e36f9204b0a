import SplitBuild.Bundle
import SplitBuild.Json.Printer
import SplitBuild.Script.Marker
/-!
# Load sites

A load site is a place in a script that needs bundles before it goes on.
It is written as an expression that promises them, in which each load is a
marker call, since the files of bundles are not known yet. Free text goes
into a comment that nothing in it can close.
-/

namespace SplitBuild

/-- A place in a script that loads bundles on demand. -/
structure LoadSite where
  /-- The name the script gives to the load. -/
  chunkName : Option String
  /-- Why the load is a unit of its own. -/
  chunkReason : Option String
  /-- The bundles that must be there. -/
  bundles : List String
  /-- The bundles that hold the script. -/
  originBundles : List String
  deriving DecidableEq, Repr

namespace LoadSite

/-! ## Comments -/

/-- A text that holds no end of a comment. -/
def defuse (text : String) : String :=
  String.ofList (Text.replaceAll ['*', '/'] ['*', ' ', '/'] text.toList)

/-- The comment of some remarks; none where no remark says anything. -/
def comment? (remarks : List (Option String)) : Option String :=
  match (remarks.filterMap id).filter (· ≠ "") with
  | [] => none
  | said => some ("/* " ++ defuse (" | ".intercalate said) ++ " */")

/-- The comment of a site with a message. -/
def siteComment? (site : LoadSite) (message : String) : Option String :=
  comment? [some message, site.chunkName, site.chunkReason]

/-- The comment of a site with a message, as it stands in front of a load: with
a blank behind it, and empty where there is none. -/
def leadingComment (site : LoadSite) (message : String) : String :=
  match site.siteComment? message with
  | some c => c ++ " "
  | none => ""

/-! ## Expressions -/

/-- The bundles a site has to load. Those that carry the runtime are there
already. -/
def toLoad (site : LoadSite) (g : BundleGraph) : List String :=
  site.bundles.filter fun id => !(g.get? id).any (·.hasRuntime)

/-- The marker call that loads a bundle. -/
def markerCall (comment id : String) : String :=
  Script.loadMarker ++ "(" ++ comment ++ String.ofList (Json.quote id) ++ ")"

/-- The expression that promises the bundles of a site. -/
def render (site : LoadSite) (g : BundleGraph) (message : String) : String :=
  let comment := (site.siteComment? message).getD ""
  let resident := "Promise.resolve(" ++ comment ++ ")"
  match site.toLoad g with
  | [] => resident
  | [only] =>
    if site.originBundles = [only] then resident
    else markerCall (site.leadingComment message) only
  | many =>
    "Promise.all(" ++ comment ++ "[" ++ ", ".intercalate (many.map (markerCall "")) ++ "])"

end LoadSite

end SplitBuild
