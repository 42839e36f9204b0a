import SplitBuild.Text.Search
/-!
# Editing a text

An edit reads a stretch at the front of a text and says what stands in its
place. `editAll` goes through a text from left to right, makes every edit
it comes to and goes on behind it, so that stretches do not overlap and
nothing that was put in is read again.
-/

namespace SplitBuild

namespace Text

/-- What stands in place of a stretch at the front of a text, and what
follows the stretch. -/
abbrev Edit := List Char → Option (List Char × List Char)

/-- A text with every edit made, from left to right. An edit that reads no
character is passed over. -/
def editAll (edit : Edit) : List Char → List Char
  | [] => []
  | c :: cs =>
    match edit (c :: cs) with
    | some (new, rest) =>
      if rest.length ≤ cs.length then new ++ editAll edit rest else c :: editAll edit cs
    | none => c :: editAll edit cs
termination_by s => s.length
decreasing_by all_goals simp only [List.length_cons]; omega

/-- Where no edit applies the first character stays. -/
theorem editAll_cons_of_none {edit : Edit} {c : Char} {cs : List Char}
    (h : edit (c :: cs) = none) : editAll edit (c :: cs) = c :: editAll edit cs := by
  rw [editAll, h]

/-- Where an edit applies, its text stands in place of the stretch. -/
theorem editAll_of_some {edit : Edit} {s new rest : List Char} (h : edit s = some (new, rest))
    (hlt : rest.length < s.length) : editAll edit s = new ++ editAll edit rest := by
  cases s with
  | nil => simp at hlt
  | cons c cs =>
    simp only [List.length_cons] at hlt
    rw [editAll, h]
    simp only [if_pos (show rest.length ≤ cs.length by omega)]

/-- The edit that puts one text in place of another. -/
def swap (pat new : List Char) : Edit := fun s => (after? pat s).map fun rest => (new, rest)

/-- A text with every occurrence of `pat` replaced. -/
def replaceAll (pat new s : List Char) : List Char := editAll (swap pat new) s

end Text

end SplitBuild
