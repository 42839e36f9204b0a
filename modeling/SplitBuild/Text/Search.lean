/-!
# Searching a text

Texts are lists of characters where they are searched. `pieces` cuts a
text at every separator and loses nothing (`intercalate_pieces`); `cut?`
finds the first occurrence of a pattern and returns the two parts that
surround it.
-/

namespace SplitBuild

namespace Text

/-! ## Cutting at separators -/

/-- The stretches of a text between separators: one more than there are
separators, some of them possibly empty. -/
def pieces (sep : Char) : List Char → List (List Char)
  | [] => [[]]
  | c :: cs =>
    if c = sep then [] :: pieces sep cs
    else match pieces sep cs with
      | [] => [[c]]
      | p :: ps => (c :: p) :: ps

/-- There is always at least one stretch. -/
theorem pieces_ne_nil (sep : Char) (s : List Char) : pieces sep s ≠ [] := by
  cases s with
  | nil => simp [pieces]
  | cons c cs =>
    unfold pieces
    split
    · simp
    · split <;> simp

/-- No stretch holds the separator. -/
theorem sep_not_mem_of_mem_pieces {sep : Char} {s p : List Char} (h : p ∈ pieces sep s) :
    sep ∉ p := by
  induction s generalizing p with
  | nil => simp [pieces] at h; simp [h]
  | cons c cs ih =>
    unfold pieces at h
    split at h
    · rcases List.mem_cons.1 h with rfl | h
      · simp
      · exact ih h
    · rename_i hc
      split at h
      · simp only [List.mem_singleton] at h
        subst h
        simpa using fun h => hc h.symm
      · rename_i q qs heq
        rcases List.mem_cons.1 h with rfl | h
        · have : sep ∉ q := ih (by rw [heq]; exact List.mem_cons_self)
          simpa [List.mem_cons, this] using fun h => hc h.symm
        · exact ih (by rw [heq]; exact List.mem_cons_of_mem _ h)

/-- Joining the stretches gives the text back. -/
theorem intercalate_pieces (sep : Char) (s : List Char) : [sep].intercalate (pieces sep s) = s := by
  induction s with
  | nil => simp [pieces, List.intercalate]
  | cons c cs ih =>
    unfold pieces
    split
    · rename_i hc
      subst hc
      cases h : pieces c cs with
      | nil => exact absurd h (pieces_ne_nil c cs)
      | cons q qs => simpa [List.intercalate, List.intersperse, h] using ih
    · split
      · rename_i h
        exact absurd h (pieces_ne_nil sep cs)
      · rename_i q qs h
        rw [h] at ih
        cases qs with
        | nil => simpa [List.intercalate] using ih
        | cons r rs => simpa [List.intercalate, List.intersperse] using ih

/-! ## What follows a pattern -/

/-- What follows `pat` in a text that starts with it. -/
def after? : List Char → List Char → Option (List Char)
  | [], s => some s
  | _ :: _, [] => none
  | p :: ps, c :: cs => if p = c then after? ps cs else none

/-- A text has a rest after `pat` exactly when it is `pat` and that rest. -/
theorem after?_eq_some_iff {pat s rest : List Char} :
    after? pat s = some rest ↔ s = pat ++ rest := by
  induction pat generalizing s with
  | nil => simp [after?, eq_comm]
  | cons p ps ih =>
    cases s with
    | nil => simp [after?]
    | cons c cs =>
      unfold after?
      split
      · rename_i h
        subst h
        simp [ih]
      · rename_i h
        simp only [reduceCtorEq, List.cons_append, List.cons.injEq, false_iff, not_and]
        exact fun hc => absurd hc.symm h

/-- What precedes `pat` in a text that ends in it. -/
def before? (pat s : List Char) : Option (List Char) :=
  (after? pat.reverse s.reverse).map List.reverse

/-- A text has a start before `pat` exactly when it is that start and `pat`. -/
theorem before?_eq_some_iff {pat s start : List Char} :
    before? pat s = some start ↔ s = start ++ pat := by
  simp only [before?, Option.map_eq_some_iff, after?_eq_some_iff]
  constructor
  · rintro ⟨r, h, rfl⟩
    simpa using congrArg List.reverse h
  · rintro rfl
    exact ⟨start.reverse, by simp, by simp⟩

/-! ## The first occurrence of a pattern -/

/-- What stands before and after the first occurrence of `pat`. -/
def cut? (pat : List Char) : List Char → Option (List Char × List Char)
  | [] => if pat.isEmpty then some ([], []) else none
  | c :: cs =>
    match after? pat (c :: cs) with
    | some after => some ([], after)
    | none => (cut? pat cs).map fun p => (c :: p.1, p.2)

/-- `pat` stands somewhere in the text. -/
def contains (pat s : List Char) : Bool := (cut? pat s).isSome

/-- The text with its first occurrence of `pat` replaced, and the text
itself where there is none. -/
def replaceFirst (pat new s : List Char) : List Char :=
  match cut? pat s with
  | some (before, after) => before ++ new ++ after
  | none => s

end Text

end SplitBuild
