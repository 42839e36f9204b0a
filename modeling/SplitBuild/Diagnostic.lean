import SplitBuild.Json.Record
/-!
# Diagnostics

A diagnostic is a problem for the user to see: what kind it is, a
sentence, the stage that found it, the assets, bundles or components
that locate it, and hints. Stages record diagnostics in order and go on.
-/

namespace SplitBuild

open Json

/-- The kinds of problems a build can find. -/
inductive Diagnostic.Kind where
  /-- A bundle depends on a bundle of another subpackage. -/
  | crossSubpackageDependency
  /-- A bundle declares bundles to fetch ahead of time. -/
  | prefetch
  /-- A marker is left after the loads are resolved. -/
  | leftoverMarker
  /-- A placeholder names a tag that is neither used nor global. -/
  | invalidPlaceholder
  /-- A placeholder names a component of another subpackage. -/
  | crossSubpackagePlaceholder
  /-- A placeholder names a component that was not emitted. -/
  | missingPlaceholderTarget
  /-- Two fragment files declare one component. -/
  | duplicateFragment
  /-- The runtime loads stylesheets through the document. -/
  | stylesheetRuntime
  | parseError
  | notFound
  | unknown
  deriving DecidableEq, Repr

/-- A problem for the user to see. -/
structure Diagnostic where
  kind : Diagnostic.Kind
  /-- One sentence on what is wrong. -/
  message : String
  /-- The stage that found it. -/
  origin : Option String
  /-- The names that locate it. -/
  subjects : List String
  hints : List String
  deriving DecidableEq, Repr

namespace Diagnostic

/-- The name under which each kind is written. -/
def Kind.named : Keyed Kind :=
  [("crossSubpackageDependency", .crossSubpackageDependency),
   ("prefetch", .prefetch),
   ("leftoverMarker", .leftoverMarker),
   ("invalidPlaceholder", .invalidPlaceholder),
   ("crossSubpackagePlaceholder", .crossSubpackagePlaceholder),
   ("missingPlaceholderTarget", .missingPlaceholderTarget),
   ("duplicateFragment", .duplicateFragment),
   ("stylesheetRuntime", .stylesheetRuntime),
   ("parseError", .parseError),
   ("notFound", .notFound),
   ("unknown", .unknown)]

/-- The written name of a kind. -/
def Kind.name : Kind → String
  | .crossSubpackageDependency => "crossSubpackageDependency"
  | .prefetch => "prefetch"
  | .leftoverMarker => "leftoverMarker"
  | .invalidPlaceholder => "invalidPlaceholder"
  | .crossSubpackagePlaceholder => "crossSubpackagePlaceholder"
  | .missingPlaceholderTarget => "missingPlaceholderTarget"
  | .duplicateFragment => "duplicateFragment"
  | .stylesheetRuntime => "stylesheetRuntime"
  | .parseError => "parseError"
  | .notFound => "notFound"
  | .unknown => "unknown"

/-- Every kind is found under its written name. -/
theorem Kind.get?_named (kind : Kind) : Kind.named.get? kind.name = some kind := by
  cases kind <;> rfl

/-- The diagnostic of a kind with a message and nothing else. -/
def ofMessage (kind : Kind) (message : String) : Diagnostic :=
  { kind, message, origin := none, subjects := [], hints := [] }

/-- The line that shows a diagnostic. -/
def display (d : Diagnostic) : String :=
  match d.origin with
  | some origin => "[" ++ origin ++ "] " ++ d.message
  | none => d.message

/-- The lines that show a list of diagnostics. -/
def displayAll (ds : List Diagnostic) : String :=
  String.join (ds.map fun d => d.display ++ "\n")

/-- How many diagnostics are of a kind. -/
def countKind (ds : List Diagnostic) (kind : Kind) : Nat :=
  (ds.filter fun d => d.kind = kind).length

/-! ## In JSON -/

/-- A kind in JSON. -/
def Kind.ofDocument? : Document → Option Kind := Document.choice? Kind.named

/-- The fields of a diagnostic in JSON, in order. -/
def fieldNames : List String := ["kind", "message", "origin", "subjects", "hints"]

/-- A diagnostic in JSON. -/
def value (d : Diagnostic) : Value :=
  .object [("kind", .string d.kind.name), ("message", .string d.message),
    ("origin", .ofOption d.origin), ("subjects", .ofStrings d.subjects),
    ("hints", .ofStrings d.hints)]

/-- A diagnostic read from JSON. -/
def ofDocument? (doc : Document) : Option Diagnostic := do
  let fields ← Record.ofDocument? .strict fieldNames doc
  let kind ← fields.required "kind" Kind.ofDocument?
  let message ← fields.required "message" Document.string?
  let origin ← fields.optional "origin" none (Document.nullable? Document.string?)
  let subjects ← fields.required "subjects" (Document.list? Document.string?)
  let hints ← fields.required "hints" (Document.list? Document.string?)
  return { kind, message, origin, subjects, hints }

/-- A list of diagnostics in JSON. -/
def valueAll (ds : List Diagnostic) : Value := .array (ds.map value)

/-- A list of diagnostics read from JSON. -/
def listOfDocument? : Document → Option (List Diagnostic) := Document.list? ofDocument?

end Diagnostic

end SplitBuild
