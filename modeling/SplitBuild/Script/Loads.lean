import SplitBuild.AssetTable
import SplitBuild.Context
import SplitBuild.Diagnostic
import SplitBuild.Script.Marker
/-!
# Loads of the emitted scripts

Every script among the assets has its loads resolved. A script without
markers stays as it is, and so does one in which a marker remains, which
is reported.
-/

namespace SplitBuild

namespace Script

/-- The stage that resolves loads. -/
def loadsOrigin : String := "rewrite-async-loads"

/-- What becomes of an asset. -/
inductive Outcome where
  /-- The asset is no script, or has no marker. -/
  | untouched
  /-- A marker remains. -/
  | leftover
  | resolved (text : String)
  deriving DecidableEq, Repr

/-- An asset is a script. -/
def isScript (ctx : Context) (name : String) : Bool :=
  (Path.stem? ctx.scriptExtension name).isSome

/-- What becomes of an asset with a source. -/
def outcome (ctx : Context) (name source : String) : Outcome :=
  if isScript ctx name && hasMarker source then
    let text := resolve name ctx.scriptExtension source
    if hasMarker text then .leftover else .resolved text
  else .untouched

/-- The report of an asset in which a marker remains. -/
def leftoverMarker (name : String) : Diagnostic where
  kind := .leftoverMarker
  message := "Failed to replace " ++ markerStart ++ " markers in \"" ++ name ++ "\""
  origin := some loadsOrigin
  subjects := [name]
  hints := []

/-- The reports on the assets, in the order of their names. -/
def leftovers (ctx : Context) (assets : AssetTable) : List Diagnostic :=
  assets.names.filterMap fun name =>
    match (assets.source? name).map (outcome ctx name) with
    | some .leftover => some (leftoverMarker name)
    | _ => none

/-- The new text of an asset, where it has one. -/
def rewritten? (ctx : Context) (name source : String) : Option String :=
  match outcome ctx name source with
  | .resolved text => some text
  | _ => none

/-- The assets with the loads of their scripts resolved, and the reports on
the scripts that stay as they are for a marker that remains. -/
def resolveLoads (ctx : Context) (assets : AssetTable) : List Diagnostic × AssetTable :=
  (leftovers ctx assets, assets.rewrite (rewritten? ctx))

end Script

end SplitBuild
