import Std.Data.ExtTreeMap
import Std.Data.ExtTreeSet
/-!
# Names in order

Names of assets, components and bundles are listed by the code points of
their characters, which is also the order of their bytes in UTF-8.
`NameMap` holds values under names in that order, and `sortedNames` lists
the distinct names of a list in it.
-/

namespace SplitBuild

/-- Values under names, listed in the order of the names. Two maps with
the same value under every name are equal. -/
abbrev NameMap (α : Type) := Std.ExtTreeMap String α compare

/-- The distinct names of a list, in order. -/
def sortedNames (names : List String) : List String :=
  (Std.ExtTreeSet.ofList names compare).toList

/-- Sorting keeps the names and adds none. -/
@[simp] theorem mem_sortedNames {names : List String} {n : String} :
    n ∈ sortedNames names ↔ n ∈ names := by
  simp [sortedNames]

/-- Each name is listed once, before the greater ones. -/
theorem sortedNames_pairwise (names : List String) :
    (sortedNames names).Pairwise fun a b => compare a b = .lt :=
  Std.ExtTreeSet.ordered_toList

end SplitBuild
