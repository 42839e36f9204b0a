import SplitBuild.Text.Search
/-!
# Slash paths

Names of emitted assets, bundles and components are relative paths with
forward slashes. A path is read as its segments, the stretches between
slashes. `normalize` resolves `.` and `..` by one pass over the segments
with a stack, `isUnder` is the relation "lies below the directory", and
`relative` names a bundle as seen from the directory of an asset. Nothing
here looks at a disk.
-/

namespace SplitBuild

namespace Path

/-! ## Segments -/

/-- The stretches of a path between slashes. -/
def segments (p : String) : List (List Char) := Text.pieces '/' p.toList

/-- The path with these segments. -/
def ofSegments (segs : List (List Char)) : String := String.ofList (['/'].intercalate segs)

/-- The path of the segments of a path is that path. -/
@[simp] theorem ofSegments_segments (p : String) : ofSegments (segments p) = p := by
  simp [ofSegments, segments, Text.intercalate_pieces]

/-- How many directories an asset lies below the output root. -/
def depth (p : String) : Nat := p.toList.count '/'

/-- The directory part of a path, empty where the path has none. -/
def dirname (p : String) : String := ofSegments (segments p).dropLast

/-- A path seen from a directory; the empty directory changes nothing. -/
def join (dir p : String) : String := if dir.isEmpty then p else dir ++ "/" ++ p

/-! ## Normal form -/

/-- What one segment does to the segments resolved so far, latest first:
nothing for an empty segment and for `.`, a step back for `..` where
there is a segment to leave, and one more segment otherwise. -/
def step (resolved : List (List Char)) (seg : List Char) : List (List Char) :=
  if seg = [] ∨ seg = ['.'] then resolved
  else if seg = ['.', '.'] then
    match resolved with
    | [] => [seg]
    | top :: rest => if top = ['.', '.'] then seg :: resolved else rest
  else seg :: resolved

/-- The segments that remain once `.` and `..` are resolved. Steps back
above the start are kept at the front. -/
def resolve (segs : List (List Char)) : List (List Char) := (segs.foldl step []).reverse

/-- A path with `.`, `..` and repeated slashes resolved. -/
def normalize (p : String) : String := ofSegments (resolve (segments p))

/-! ## Directories -/

/-- A path without the slashes at its end. -/
def trimSlashes (p : String) : String :=
  String.ofList (p.toList.reverse.dropWhile (· = '/')).reverse

/-- Trimming leaves nothing to trim. -/
theorem trimSlashes_trimSlashes (p : String) : trimSlashes (trimSlashes p) = trimSlashes p := by
  simp only [trimSlashes, String.toList_ofList, List.reverse_reverse]
  congr 2
  generalize p.toList.reverse = l
  induction l with
  | nil => rfl
  | cons c cs ih =>
    by_cases h : c = '/'
    · simpa [h] using ih
    · simp [h]

/-- `name` lies below the directory `root`, trailing slashes of which do
not count. Nothing lies below the empty root. -/
def isUnder (name root : String) : Bool :=
  let dir := (trimSlashes root).toList
  !dir.isEmpty && (Text.after? (dir ++ ['/']) name.toList).isSome

/-- A name without the extension it ends in. -/
def stem? (extension name : String) : Option String :=
  (Text.before? extension.toList name.toList).map String.ofList

/-- A name has a stem exactly when it is the stem and the extension. -/
theorem stem?_eq_some_iff {extension name stem : String} :
    stem? extension name = some stem ↔ name = stem ++ extension := by
  simp only [stem?, Option.map_eq_some_iff, Text.before?_eq_some_iff]
  constructor
  · rintro ⟨l, h, rfl⟩
    exact String.toList_injective (by simpa using h)
  · rintro rfl
    exact ⟨stem.toList, by simp, by simp⟩

/-- The way from the directory of an asset to the output root. -/
def upward (asset : String) : String :=
  String.join (List.replicate (depth asset) "../")

/-- The file of bundle `id` relative to the directory of `asset`: one step
up for each directory the asset lies in, then the bundle. -/
def relative (asset id extension : String) : String := upward asset ++ id ++ extension

end Path

end SplitBuild
