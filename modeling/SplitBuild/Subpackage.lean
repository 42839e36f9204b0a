import SplitBuild.Json.Record
import SplitBuild.Path
/-!
# Subpackages

A subpackage is declared with a root directory, a flag for being
independent, its pages, and further fields that are kept as they are.
Modules, bundles and components belong to the subpackage whose root is the
deepest directory they lie under, and to the main package otherwise.

A `SubpackageSet` holds the declarations of a build with their roots
trimmed; a root is never empty and never ends in a slash, which the type
records.
-/

namespace SplitBuild

open Json

/-! ## Declarations -/

/-- The fields of a page that is an object. -/
def Page.fieldNames : List String := ["path"]

/-- A page of a subpackage: its path, with or without further fields. -/
inductive Page where
  | path (path : String)
  | route (path : String) (extras : Extras Page.fieldNames)
  deriving DecidableEq

/-- The names of the fields of a subpackage. -/
def Subpackage.fieldNames : List String := ["root", "independent", "pages"]

/-- A declared subpackage. -/
structure Subpackage where
  /-- The directory of the subpackage. -/
  root : String
  /-- The subpackage runs without the main package. -/
  independent : Bool
  pages : List Page
  /-- The further fields. -/
  extras : Extras Subpackage.fieldNames
  deriving DecidableEq

namespace Page

/-- The path of a page. -/
def toPath : Page → String
  | path p => p
  | route p _ => p

/-- A page in JSON. -/
def value : Page → Value
  | path p => .string p
  | route p extras => .object (("path", .string p) :: extras.entries)

/-- A page read from JSON. -/
def ofDocument? : Document → Option Page
  | .string p => some (.path p)
  | .object entries => do
    let fields ← Record.ofEntries? fieldNames entries
    let p ← fields.required "path" Document.string?
    let extras ← Extras.ofEntries? fieldNames entries
    return .route p extras
  | _ => none

end Page

namespace Subpackage

/-- The subpackage with a root and nothing else. -/
def ofRoot (root : String) : Subpackage :=
  { root, independent := false, pages := [], extras := .empty }

/-- A subpackage in JSON; the flag is written where it is set. -/
def value (s : Subpackage) : Value :=
  .object (("root", .string s.root)
    :: (if s.independent then [("independent", .bool true)] else [])
    ++ ("pages", .array (s.pages.map Page.value)) :: s.extras.entries)

/-- A subpackage read from JSON. Only an object declares one. -/
def ofDocument? : Document → Option Subpackage
  | .object entries => do
    let fields ← Record.ofEntries? fieldNames entries
    let root ← fields.optional "root" "" Document.string?
    let independent ← fields.optional "independent" false Document.bool?
    let pages ← fields.optional "pages" [] (Document.list? Page.ofDocument?)
    let extras ← Extras.ofEntries? fieldNames entries
    return { root, independent, pages, extras }
  | _ => none

end Subpackage

/-! ## Packages -/

/-- The part of the program that a module, bundle or component belongs to. -/
inductive Package where
  | main
  | subpackage (root : String)
  deriving DecidableEq, Repr

namespace Package

/-- A package is the main one. -/
def isMain : Package → Bool
  | main => true
  | subpackage _ => false

/-- The name that shows a package. -/
def display : Package → String
  | main => "__main__"
  | subpackage root => root

end Package

/-! ## The declarations of a build -/

/-- A root that a set may hold: not empty, without a slash at its end. -/
def IsTrimmedRoot (root : String) : Prop := root ≠ "" ∧ Path.trimSlashes root = root

/-- The subpackages of a build, in the order of their declarations. -/
structure SubpackageSet where
  members : List Subpackage
  /-- Every root is trimmed. -/
  trimmed : ∀ s ∈ members, IsTrimmedRoot s.root

namespace SubpackageSet

/-- No subpackages. -/
def empty : SubpackageSet := ⟨[], by simp⟩

/-- A declaration with its root trimmed; none where nothing is left of it. -/
def trim? (s : Subpackage) : Option Subpackage :=
  let root := Path.trimSlashes s.root
  if root = "" then none else some { s with root }

/-- What trimming leaves is trimmed. -/
theorem isTrimmedRoot_of_trim? {s t : Subpackage} (h : trim? s = some t) :
    IsTrimmedRoot t.root := by
  simp only [trim?] at h
  split at h
  · simp at h
  · rename_i hr
    simp only [Option.some.injEq] at h
    subst h
    exact ⟨hr, Path.trimSlashes_trimSlashes _⟩

/-- The set of some declarations. -/
def ofDeclared (declared : List Subpackage) : SubpackageSet :=
  ⟨declared.filterMap trim?, fun t ht => by
    obtain ⟨s, -, hs⟩ := List.mem_filterMap.1 ht
    exact isTrimmedRoot_of_trim? hs⟩

/-- The roots, in the order of their declarations. -/
def roots (set : SubpackageSet) : List String := set.members.map (·.root)

/-- The first subpackage with a root. -/
def get? (set : SubpackageSet) (root : String) : Option Subpackage :=
  set.members.find? (·.root = root)

/-- The one with the longest root, the last of several. -/
def deepest? (candidates : List Subpackage) : Option Subpackage :=
  candidates.foldl (fun best s =>
    match best with
    | some b => if b.root.length ≤ s.root.length then some s else best
    | none => some s) none

/-- The subpackage with the deepest root that a name lies under. -/
def matching (set : SubpackageSet) (name : String) : Option Subpackage :=
  deepest? (set.members.filter fun s => Path.isUnder name s.root)

/-- The same, among the subpackages that are not independent. -/
def matchingNormal (set : SubpackageSet) (name : String) : Option Subpackage :=
  deepest? (set.members.filter fun s => !s.independent && Path.isUnder name s.root)

/-- The package that a name belongs to. -/
def classify (set : SubpackageSet) (name : String) : Package :=
  match set.matching name with
  | some s => .subpackage s.root
  | none => .main

end SubpackageSet

end SplitBuild
