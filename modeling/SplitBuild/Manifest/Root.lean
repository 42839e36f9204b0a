import SplitBuild.AssetTable
import SplitBuild.Context
import SplitBuild.Failure
import SplitBuild.Json.Printer
import SplitBuild.Json.Reader
/-!
# The root manifest

The root manifest lists the subpackages of the program. `patch` adds the
subpackages the options append and the declared ones that have assets and
no page to be listed by, drops global components, and sets the flag for
loading code lazily. No root is listed a second time. `patchAsset` does so
on the assets and leaves a root manifest alone that cannot be patched.
-/

namespace SplitBuild

open Json

namespace RootManifest

/-- The key of the list of subpackages. -/
def subPackages : String := "subPackages"

/-- The key of the global components. -/
def usingComponents : String := "usingComponents"

/-- The key of the flag for loading code lazily. -/
def lazyCodeLoading : String := "lazyCodeLoading"

/-! ## Subpackages -/

/-- The entry of a subpackage without pages. Every field is kept. -/
def entryWithoutPages (s : Subpackage) : Value :=
  .object (("root", .string s.root) :: ("pages", .array [])
    :: (if s.independent then [("independent", .bool true)] else []) ++ s.extras.entries)

/-- The root that an entry of the list has. -/
def root? (entry : Value) : Option String :=
  (entry.entries?.bind fun e => e.get? "root").bind Value.string?

/-- The roots that are listed. -/
def listedRoots (entries : List Value) : List String := entries.filterMap root?

/-- A list with a subpackage that the options append. One without a root
is left out. -/
def append (entries : List Value) (s : Subpackage) : List Value :=
  if s.root = "" ∨ s.root ∈ listedRoots entries then entries else entries ++ [s.value]

/-- A list with a declared subpackage, if it has no pages and one of the
assets lies under it. -/
def discover (assetNames : List String) (entries : List Value) (s : Subpackage) : List Value :=
  if s.pages.isEmpty ∧ s.root ∉ listedRoots entries ∧ assetNames.any (Path.isUnder · s.root) then
    entries ++ [entryWithoutPages s]
  else entries

/-- The list of subpackages of a build that starts from `entries`. -/
def listed (ctx : Context) (assetNames : List String) (entries : List Value) : List Value :=
  ctx.subpackages.members.foldl (discover assetNames)
    (ctx.options.appendSubPackages.foldl append entries)

/-! ## The other entries -/

/-- A manifest without the global components that the options drop. -/
def dropComponents (options : Options) (manifest : Object) : Object :=
  match manifest.get? usingComponents with
  | some (.object components) =>
    manifest.put usingComponents
      (.object (components.filter fun e => e.1 ∉ options.deleteComponents))
  | _ => manifest

/-- A manifest with the flag the options ask for. -/
def setLazyLoading (options : Options) (manifest : Object) : Object :=
  match options.lazyCodeLoading with
  | none => manifest
  | some "" => manifest.erase lazyCodeLoading
  | some flag => manifest.put lazyCodeLoading (.string flag)

/-! ## Patching -/

/-- Why a root manifest cannot be patched. -/
inductive Flaw where
  | unreadable
  | notAnObject
  /-- What stands where the subpackages are listed is no list. -/
  | notAList
  deriving DecidableEq, Repr

/-- The failure that a flaw is. -/
def Flaw.failure : Flaw → Failure
  | .unreadable =>
    (Failure.ofMessage Document.syntaxNotice).within "Failed to parse the root manifest"
  | .notAnObject => .ofMessage "The root manifest is not an object"
  | .notAList => .ofMessage ("\"" ++ subPackages ++ "\" is not a list")

/-- The list of subpackages of a manifest, empty where there is none. -/
def entries (manifest : Object) : Except Flaw (List Value) :=
  match manifest.get? subPackages with
  | none => .ok []
  | some (.array entries) => .ok entries
  | some _ => .error .notAList

/-- A root manifest, patched for a build. -/
def patchObject (ctx : Context) (assetNames : List String) (manifest : Object) :
    Except Flaw Object := do
  let listed := listed ctx assetNames (← entries manifest)
  return setLazyLoading ctx.options
    (dropComponents ctx.options (manifest.put subPackages (.array listed)))

/-- The text of a root manifest, patched for a build. -/
def patch (ctx : Context) (assetNames : List String) (source : String) : Except Flaw String := do
  match Value.read? source with
  | none => throw .unreadable
  | some (.object manifest) =>
    return (Value.object (← patchObject ctx assetNames manifest)).pretty
  | some _ => throw .notAnObject

/-- The new text of an asset: the patched root manifest, where it changes. -/
def rewritten? (ctx : Context) (assetNames : List String) (name source : String) :
    Option String :=
  if name = ctx.appManifest then
    match patch ctx assetNames source with
    | .ok text => if text = source then none else some text
    | .error _ => none
  else none

/-- The root manifest of the assets changes when it is patched. -/
def changes (ctx : Context) (assets : AssetTable) : Bool :=
  ((assets.source? ctx.appManifest).bind
    (rewritten? ctx assets.names ctx.appManifest)).isSome

/-- The assets with their root manifest patched. -/
def patchAsset (ctx : Context) (assets : AssetTable) : AssetTable :=
  assets.rewrite (rewritten? ctx assets.names)

end RootManifest

end SplitBuild
