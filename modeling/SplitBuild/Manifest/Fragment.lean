import SplitBuild.Failure
import SplitBuild.Json.Reader
import SplitBuild.Names
import SplitBuild.Path
/-!
# Fragments

A fragment declares, beside the source of a component, the components it
uses on demand and the placeholders that stand for them. A fragment file
holds fragments under names relative to its directory. A table is built
from the files in turn, with the files that declare each component kept
beside the fragments; it is finished only where no component is declared
twice.
-/

namespace SplitBuild

open Json

/-- What is declared for one component, by tag. -/
structure Fragment where
  /-- Paths of components in use. -/
  usingComponents : Keyed String
  /-- The tags shown until a component is there. -/
  componentPlaceholder : Keyed String
  deriving DecidableEq, Repr

namespace Fragment

/-- The fragment that declares nothing. -/
def empty : Fragment := ⟨[], []⟩

/-- The stage that reads fragments. -/
def loadOrigin : String := "load-fragments"

/-- The fields of a fragment in JSON, in order. -/
def fieldNames : List String := ["usingComponents", "componentPlaceholder"]

/-- A fragment in JSON. -/
def value (f : Fragment) : Value :=
  .object [("usingComponents", .ofTexts f.usingComponents),
    ("componentPlaceholder", .ofTexts f.componentPlaceholder)]

/-- A fragment read from JSON. -/
def ofDocument? (doc : Document) : Option Fragment := do
  let fields ← Record.ofDocument? .strict fieldNames doc
  let usingComponents ←
    fields.optional "usingComponents" [] (Document.entries? Document.string?)
  let componentPlaceholder ←
    fields.optional "componentPlaceholder" [] (Document.entries? Document.string?)
  return { usingComponents, componentPlaceholder }

end Fragment

/-! ## Declarations -/

/-- A fragment with the component it is for and the file it stands in. -/
structure Declaration where
  /-- The component, by its name below the output root. -/
  component : String
  file : String
  fragment : Fragment
  deriving DecidableEq, Repr

namespace Declaration

/-- The report of a fragment file that cannot be read. -/
def unreadableFile (file : String) : Diagnostic where
  kind := .parseError
  message := "Failed to parse component fragment: " ++ Document.syntaxNotice
  origin := some Fragment.loadOrigin
  subjects := [file]
  hints := []

/-- The declarations of a fragment file in a directory. -/
def ofFile (directory file contents : String) : Except Failure (List Declaration) :=
  match (Document.read? contents).bind (Document.entries? Fragment.ofDocument?) with
  | some fragments => .ok (fragments.map fun e => ⟨Path.join directory e.1, file, e.2⟩)
  | none => .error (.ofDiagnostic (unreadableFile file))

end Declaration

/-! ## Tables -/

/-- The fragments of a build, by component. -/
abbrev FragmentTable := NameMap Fragment

namespace FragmentTable

/-- A table that is being built. -/
structure Builder where
  /-- The last fragment of each component. -/
  fragments : FragmentTable
  /-- The files that declare a component, in order. -/
  declaredIn : NameMap (List String)

/-- The report of components that are declared more than once, each with the
files that declare it. -/
def duplicateDeclaration (duplicates : List (String × List String)) : Diagnostic where
  kind := .duplicateFragment
  message := "Duplicate component defined in async.component.json: "
    ++ ", ".intercalate (duplicates.map fun e => "\"" ++ e.1 ++ "\"")
  origin := some Fragment.loadOrigin
  subjects := duplicates.map (·.1)
  hints := duplicates.map fun e => e.1 ++ " is declared in " ++ ", ".intercalate e.2

namespace Builder

/-- Nothing is declared yet. -/
def empty : Builder := ⟨∅, ∅⟩

/-- One more declaration. -/
def declare (b : Builder) (d : Declaration) : Builder where
  fragments := b.fragments.insert d.component d.fragment
  declaredIn := b.declaredIn.insert d.component
    ((b.declaredIn[d.component]?).getD [] ++ [d.file])

/-- The declarations of one more file in a directory. A file that cannot be
read declares nothing. -/
def addFile (directory file contents : String) (b : Builder) : Except Failure Unit × Builder :=
  match Declaration.ofFile directory file contents with
  | .ok declarations => (.ok (), declarations.foldl declare b)
  | .error fault => (.error fault, b)

/-- The components that are declared more than once, in order. -/
def duplicates (b : Builder) : List (String × List String) :=
  b.declaredIn.toList.filter fun e => 1 < e.2.length

/-- The table, where no component is declared twice. -/
def finish (b : Builder) : Except Diagnostic FragmentTable :=
  match b.duplicates with
  | [] => .ok b.fragments
  | duplicates => .error (duplicateDeclaration duplicates)

end Builder

/-- The table of some declarations. -/
def ofDeclarations (declarations : List Declaration) : Except Diagnostic FragmentTable :=
  (declarations.foldl Builder.declare .empty).finish

end FragmentTable

end SplitBuild
