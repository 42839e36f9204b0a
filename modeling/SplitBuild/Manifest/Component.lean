import SplitBuild.AssetTable
import SplitBuild.Json.Printer
import SplitBuild.Manifest.Fragment
import SplitBuild.Manifest.Tag
/-!
# Component manifests

The manifest of a component says which components it uses and which tags
stand for them until they are there. `merge` lays three things over a
manifest: a placeholder for every component of another subpackage, and
the two parts of the declared fragment. A manifest that this changes is
checked, entry by entry, before it is written; `mergeManifests` does so
for every component that was emitted.
-/

namespace SplitBuild

open Json

namespace ComponentManifest

/-- The stage that merges component manifests. -/
def origin : String := "merge-component-manifests"

/-- The key of the components in use. -/
def usingComponents : String := "usingComponents"

/-- The key of the placeholders. -/
def componentPlaceholder : String := "componentPlaceholder"

/-! ## Components in use -/

/-- The component that a path names in the manifest of `component`: from
the output root where the path starts with a slash, and from the directory
of the component otherwise. -/
def target (component path : String) : String :=
  match path.toList with
  | '/' :: rest => String.ofList rest
  | _ => Path.normalize (Path.join (Path.dirname component) path)

/-- A component lies in a subpackage that is not the one of `component`. -/
def crosses (ctx : Context) (component other : String) : Bool :=
  let package := ctx.classify other
  package ≠ ctx.classify component && !package.isMain

/-! ## Merging -/

/-- Placeholders for the components that lie in another subpackage. -/
def autoPlaceholders (ctx : Context) (component : String) (manifest : Object) : Keyed String :=
  ((manifest.textsAt usingComponents).filter fun e =>
    crosses ctx component (target component e.2)).map fun e => (e.1, ctx.placeholderTag)

/-- A manifest with texts put into the object under a key. What is there
and no object gives way to one; no texts change nothing. -/
def overlay (manifest : Object) (key : String) (texts : Keyed String) : Object :=
  if texts.isEmpty then manifest
  else
    let inner := ((manifest.get? key).bind Value.entries?).getD []
    manifest.put key (.object (inner.putAll (texts.map fun e => (e.1, .string e.2))))

/-- A manifest with its automatic placeholders and its fragment. -/
def merged (ctx : Context) (component : String) (fragment : Fragment) (manifest : Object) :
    Object :=
  let placed := overlay manifest componentPlaceholder (autoPlaceholders ctx component manifest)
  let used := overlay placed usingComponents fragment.usingComponents
  overlay used componentPlaceholder fragment.componentPlaceholder

/-! ## Checking placeholders -/

/-- What can be wrong with a placeholder. -/
inductive Flaw where
  /-- The tag is neither in use nor global. -/
  | invalid
  /-- The tag names a component of another subpackage. -/
  | crossSubpackage
  /-- The tag names a component that was not emitted. -/
  | missingTarget
  deriving DecidableEq, Repr

/-- The kind of diagnostic that reports a flaw. -/
def Flaw.kind : Flaw → Diagnostic.Kind
  | .invalid => .invalidPlaceholder
  | .crossSubpackage => .crossSubpackagePlaceholder
  | .missingTarget => .missingPlaceholderTarget

/-- The words that name a flaw. -/
def Flaw.words : Flaw → String
  | .invalid => "Invalid"
  | .crossSubpackage => "Across sub-package"
  | .missingTarget => "Not exist"

/-- The flaw of a placeholder tag in a manifest that uses the components
`used`. -/
def flaw? (ctx : Context) (component : String) (emitted : String → Bool) (used : Keyed String)
    (tag : String) : Option Flaw :=
  match used.get? tag with
  | none => if ctx.isGlobalTag tag then none else some .invalid
  | some path =>
    if crosses ctx component (target component path) then some .crossSubpackage
    else if emitted (target component path) then none
    else some .missingTarget

/-- The report of a flaw. -/
def flawed (component key tag : String) (flaw : Flaw) : Diagnostic where
  kind := flaw.kind
  message := flaw.words ++ " componentPlaceholder \"" ++ key ++ ": " ++ tag
    ++ "\" in component \"" ++ component ++ "\""
  origin := some origin
  subjects := [component, key]
  hints := []

/-- The reports on the placeholders of a manifest, in order. -/
def check (ctx : Context) (component : String) (emitted : String → Bool) (manifest : Object) :
    List Diagnostic :=
  (manifest.textsAt componentPlaceholder).filterMap fun e =>
    (flaw? ctx component emitted (manifest.textsAt usingComponents) e.2).map
      (flawed component e.1 e.2)

/-! ## One manifest -/

/-- The report of a manifest with a message. -/
def unusable (component message : String) : Diagnostic where
  kind := .parseError
  message := message
  origin := some origin
  subjects := [component]
  hints := []

/-- The object that a manifest is. -/
def read (component source : String) : Except (List Diagnostic) Object :=
  match Value.read? source with
  | none =>
    .error [unusable component ("Failed to parse the manifest of component \"" ++ component
      ++ "\": " ++ Document.syntaxNotice)]
  | some (.object manifest) => .ok manifest
  | some _ =>
    .error [unusable component ("The manifest of component \"" ++ component
      ++ "\" is not an object")]

/-- A manifest that is an object, merged: none where nothing changes, and
the reports where a placeholder is flawed. -/
def mergeObject (ctx : Context) (component : String) (fragment : Fragment)
    (emitted : String → Bool) (manifest : Object) : Except (List Diagnostic) (Option Object) :=
  let result := merged ctx component fragment manifest
  if result = manifest then .ok none
  else match check ctx component emitted result with
    | [] => .ok (some result)
    | reports => .error reports

/-- The text of a merged manifest; none where nothing changes. -/
def merge (ctx : Context) (component source : String) (fragment : Fragment)
    (emitted : String → Bool) : Except (List Diagnostic) (Option String) := do
  let manifest ← read component source
  let result ← mergeObject ctx component fragment emitted manifest
  return result.map fun m => (Value.object m).pretty

/-! ## All manifests -/

/-- A component was emitted: its template is among the assets. -/
def isEmitted (ctx : Context) (assets : AssetTable) (component : String) : Bool :=
  assets.contains (component ++ ctx.templateExtension)

/-- The components that were emitted, in the order of their templates. -/
def emittedComponents (ctx : Context) (assets : AssetTable) : List String :=
  assets.names.filterMap (Path.stem? ctx.templateExtension)

/-- The merge of a component of the assets, with the source of its
manifest. -/
def mergeEmitted (ctx : Context) (fragments : FragmentTable) (assets : AssetTable)
    (component source : String) : Except (List Diagnostic) (Option String) :=
  merge ctx component source (fragments[component]?.getD .empty) (isEmitted ctx assets)

/-- The reports on the manifests of the emitted components, in order. A
component without a manifest has none. -/
def reports (ctx : Context) (fragments : FragmentTable) (assets : AssetTable) : List Diagnostic :=
  (emittedComponents ctx assets).flatMap fun component =>
    match (assets.source? (component ++ ctx.manifestExtension)).map
      (mergeEmitted ctx fragments assets component) with
    | some (.error reports) => reports
    | _ => []

/-- The new text of an asset: the merged manifest where it is the manifest
of an emitted component and changes. -/
def rewritten? (ctx : Context) (fragments : FragmentTable) (assets : AssetTable)
    (name source : String) : Option String := do
  let component ← Path.stem? ctx.manifestExtension name
  guard (isEmitted ctx assets component)
  match mergeEmitted ctx fragments assets component source with
  | .ok text => text
  | .error _ => none

/-- The assets with the manifests of their components merged, and the
reports on those that cannot be. -/
def mergeManifests (ctx : Context) (fragments : FragmentTable) (assets : AssetTable) :
    List Diagnostic × AssetTable :=
  (reports ctx fragments assets, assets.rewrite (rewritten? ctx fragments assets))

end ComponentManifest

end SplitBuild
