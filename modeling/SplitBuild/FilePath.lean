import SplitBuild.Names
import SplitBuild.Path
/-!
# File paths

A file path keeps the text it was built from, which messages show, and is
compared by its components: repeated slashes, `.` inside the path and a
slash at its end do not count, and `..` is a component of its own. A
location is a list of components; `FilePath.resolve` gives the location of
a path seen from another location, and `Location.ancestors` the locations
above one.

Paths are texts. A file system may also hold files whose names are not
UTF-8; such a name is no text, and it is outside of what is described here.
-/

namespace SplitBuild

/-! ## Components -/

/-- A step of a file path. -/
inductive Component where
  /-- The slash in front of an absolute path. -/
  | root
  /-- The dot in front of a relative path. -/
  | current
  /-- A step to the directory above. -/
  | parent
  /-- A step into a directory or to a file. -/
  | normal (name : String)
  deriving DecidableEq, Repr

namespace Component

/-- The place of a kind of component in the order of components. -/
def rank : Component → Nat
  | .root => 0
  | .current => 1
  | .parent => 2
  | .normal _ => 3

/-- How a component is written. -/
def text : Component → String
  | .root => "/"
  | .current => "."
  | .parent => ".."
  | .normal name => name

/-- Components are ordered by their kind, and names among each other. -/
def order (a b : Component) : Ordering := compareLex (compareOn rank) (compareOn text) a b

instance : Ord Component := ⟨order⟩

instance : Std.TransOrd Component :=
  inferInstanceAs (Std.TransCmp (compareLex (compareOn rank) (compareOn text)))

instance : Std.LawfulEqOrd Component where
  eq_of_compare {a b} h := by
    have h : order a b = .eq := h
    simp only [order, compareLex, compareOn, Ordering.then_eq_eq, Std.compare_eq_iff_eq] at h
    cases a <;> cases b <;> simp_all [rank, text]
  compare_self := Std.ReflCmp.compare_self

/-- The component of a segment inside a path; none for a segment that does
not count. -/
def ofSegment? (seg : List Char) : Option Component :=
  if seg = [] ∨ seg = ['.'] then none
  else if seg = ['.', '.'] then some .parent
  else some (.normal (String.ofList seg))

end Component

/-! ## Locations -/

/-- A place in a tree of files. -/
abbrev Location := List Component

namespace Location

/-- The lists that a list starts with, itself left out. -/
def properStarts : List Component → List (List Component)
  | [] => []
  | c :: cs => [] :: (properStarts cs).map (c :: ·)

/-- The locations above one. Nothing lies above the root. -/
def ancestors : Location → List Location
  | .root :: rest => (properStarts rest).map (.root :: ·)
  | l => properStarts l

/-- A location lies at or below another. -/
def isWithin (l top : Location) : Bool := top.isPrefixOf l

/-- What one component does to a location. -/
def enter (l : Location) : Component → Location
  | .current => l
  | .parent => l.dropLast
  | step => l ++ [step]

end Location

/-! ## Paths -/

/-- A path as it is written. -/
structure FilePath where
  text : String
  deriving DecidableEq, Repr

namespace FilePath

/-- A path starts at the root. -/
def isAbsolute (p : FilePath) : Bool := p.text.toList.head? = some '/'

/-- The components of a path. -/
def components (p : FilePath) : List Component :=
  let segs := Path.segments p.text
  let steps := segs.filterMap Component.ofSegment?
  if p.isAbsolute then .root :: steps
  else if segs.head? = some ['.'] then .current :: steps
  else steps

/-- A path seen from another one. An absolute path is seen from nowhere. -/
def join (base p : FilePath) : FilePath :=
  if p.isAbsolute then p
  else if base.text.isEmpty ∨ base.text.toList.getLast? = some '/' then ⟨base.text ++ p.text⟩
  else ⟨base.text ++ "/" ++ p.text⟩

/-- The path of components. -/
def ofComponents (steps : List Component) : FilePath :=
  steps.foldl (fun p step => p.join ⟨step.text⟩) ⟨""⟩

/-- The path of the directory that holds a path; none for the root and for
the empty path. -/
def parent? (p : FilePath) : Option FilePath :=
  match p.components.getLast? with
  | none | some .root => none
  | some _ => some (ofComponents p.components.dropLast)

/-- The slash path that leads from `base` to `p`, where `p` starts with
the components of `base`. -/
def nameUnder? (p base : FilePath) : Option String :=
  if base.components.isPrefixOf p.components then
    some (ofComponents (p.components.drop base.components.length)).text
  else none

/-- The location of a path seen from a location. -/
def resolve (p : FilePath) (cwd : Location) : Location :=
  p.components.foldl Location.enter (if p.isAbsolute then [] else cwd)

end FilePath

end SplitBuild
