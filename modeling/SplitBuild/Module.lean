import SplitBuild.Json.Record
/-!
# Modules

A module is a compiled unit with the references to it and the bundles
that use it before placement. A reference is held by the module it points
to and names the module it comes from.
-/

namespace SplitBuild

open Json

/-- What a module was compiled from. -/
inductive Module.Kind where
  /-- Script code, which may be placed. -/
  | script
  /-- The source of a page or component. -/
  | component
  /-- The script the application starts with. -/
  | appEntry
  /-- What is left of a stylesheet. -/
  | stylesheet
  deriving DecidableEq, Repr

/-- How a module is referenced. -/
inductive ReferenceKind where
  | sync
  /-- A load on demand. -/
  | async
  deriving DecidableEq, Repr

/-- A reference to the module that holds it. -/
structure Reference where
  /-- The module it comes from. -/
  origin : String
  kind : ReferenceKind
  deriving DecidableEq, Repr

/-- A bundle that uses a module, which may have no name. -/
structure Consumer where
  name : Option String
  deriving DecidableEq, Repr

/-- A compiled unit. -/
structure Module where
  id : String
  /-- The source file, relative to the source root. -/
  resource : Option String
  kind : Module.Kind
  references : List Reference
  consumers : List Consumer
  deriving DecidableEq, Repr

/-! ## In JSON -/

namespace Module.Kind

/-- The written name of a kind. -/
def name : Module.Kind → String
  | script => "script"
  | component => "component"
  | appEntry => "appEntry"
  | stylesheet => "stylesheet"

/-- The kinds under their written names. -/
def named : Keyed Module.Kind :=
  [("script", script), ("component", component), ("appEntry", appEntry), ("stylesheet", stylesheet)]

/-- Every kind is found under its written name. -/
theorem get?_named (kind : Module.Kind) : named.get? kind.name = some kind := by
  cases kind <;> rfl

end Module.Kind

namespace ReferenceKind

/-- The written name of a kind of reference. -/
def name : ReferenceKind → String
  | sync => "sync"
  | async => "async"

/-- The kinds of reference under their written names. -/
def named : Keyed ReferenceKind := [("sync", sync), ("async", async)]

/-- Every kind of reference is found under its written name. -/
theorem get?_named (kind : ReferenceKind) : named.get? kind.name = some kind := by
  cases kind <;> rfl

end ReferenceKind

namespace Reference

/-- The fields of a reference in JSON, in order. -/
def fieldNames : List String := ["origin", "kind"]

/-- A reference in JSON. -/
def value (r : Reference) : Value :=
  .object [("origin", .string r.origin), ("kind", .string r.kind.name)]

/-- A reference read from JSON. -/
def ofDocument? (doc : Document) : Option Reference := do
  let fields ← Record.ofDocument? .strict fieldNames doc
  let origin ← fields.required "origin" Document.string?
  let kind ← fields.optional "kind" .sync (Document.choice? ReferenceKind.named)
  return { origin, kind }

end Reference

namespace Consumer

/-- The fields of a consumer in JSON. -/
def fieldNames : List String := ["name"]

/-- A consumer in JSON. -/
def value (c : Consumer) : Value := .object [("name", .ofOption c.name)]

/-- A consumer read from JSON. -/
def ofDocument? (doc : Document) : Option Consumer := do
  let fields ← Record.ofDocument? .strict fieldNames doc
  let name ← fields.optional "name" none (Document.nullable? Document.string?)
  return { name }

end Consumer

namespace Module

/-- The module of a source file, which names it. -/
def ofSource (id : String) (kind : Kind) : Module :=
  { id, resource := some id, kind, references := [], consumers := [] }

/-- The fields of a module in JSON, in order. -/
def fieldNames : List String := ["id", "resource", "kind", "references", "consumers"]

/-- A module in JSON. -/
def value (m : Module) : Value :=
  .object [("id", .string m.id), ("resource", .ofOption m.resource), ("kind", .string m.kind.name),
    ("references", .array (m.references.map Reference.value)),
    ("consumers", .array (m.consumers.map Consumer.value))]

/-- A module read from JSON. -/
def ofDocument? (doc : Document) : Option Module := do
  let fields ← Record.ofDocument? .strict fieldNames doc
  let id ← fields.required "id" Document.string?
  let resource ← fields.optional "resource" none (Document.nullable? Document.string?)
  let kind ← fields.optional "kind" .script (Document.choice? Kind.named)
  let references ← fields.optional "references" [] (Document.list? Reference.ofDocument?)
  let consumers ← fields.optional "consumers" [] (Document.list? Consumer.ofDocument?)
  return { id, resource, kind, references, consumers }

end Module

end SplitBuild
