import SplitBuild.Proofs.Script.Regions
import SplitBuild.Script.LoadSite
/-!
# Comments of load sites

The comment of a load site joins what it is given and takes the ends of
comments apart. A pattern without a space stands in it only where it was
before (`infix_of_infix_defused`), so that the comment **brings in no
marker and no line feed, and cannot be closed from within**
(`comment?_cases`).
-/

namespace SplitBuild

namespace Script

variable {u v w : List Char}

/-! ## Putting texts together -/

theorem unmarked_of_nowhere (h : Text.Nowhere (markerStart.toList <+: ·) w []) : Unmarked w :=
  Text.not_infix_of_nowhere (by decide) h

theorem Unmarked.append (hu : Unmarked u) (hv : Unmarked v) (hstops : Stops v) :
    Unmarked (u ++ v) := by
  refine unmarked_of_nowhere (Text.nowhere_append.2 ⟨?_, hv.nowhere_of_stops stops_nil⟩)
  rw [List.append_nil]
  exact hu.nowhere_of_stops hstops

theorem Unmarked.append_left (hu : '_' ∉ u) (hv : Unmarked v) : Unmarked (u ++ v) :=
  unmarked_of_nowhere <|
    Text.nowhere_append.2 ⟨nowhere_of_underscore_not_mem hu, hv.nowhere_of_stops stops_nil⟩

end Script

namespace LoadSite

open Script

/-- What holds of the parts and is kept by joining holds of the whole. -/
theorem intercalate_of_forall {p : String → Prop} {sep : String} (hnil : p "")
    (hjoin : ∀ t u, p t → p u → p (t ++ sep ++ u)) {l : List String} (h : ∀ t ∈ l, p t) :
    p (sep.intercalate l) := by
  induction l with
  | nil => rwa [String.intercalate_nil]
  | cons t l ih =>
    cases l with
    | nil =>
      rw [String.intercalate_singleton]
      exact h t List.mem_cons_self
    | cons u l =>
      rw [String.intercalate_cons_cons]
      exact hjoin _ _ (h t List.mem_cons_self) (ih fun x hx => h x (List.mem_cons_of_mem _ hx))

/-! ## Comments that nothing closes -/

/-- A text with its ends of comments taken apart. -/
def defused (s : List Char) : List Char := Text.replaceAll ['*', '/'] ['*', ' ', '/'] s

theorem defused_nil : defused [] = [] := by rw [defused, Text.replaceAll, Text.editAll]

theorem defused_close (rest : List Char) :
    defused ('*' :: '/' :: rest) = '*' :: ' ' :: '/' :: defused rest := by
  have h : Text.swap ['*', '/'] ['*', ' ', '/'] ('*' :: '/' :: rest) = some (['*', ' ', '/'], rest) := by
    simp [Text.swap, Text.after?]
  exact Text.editAll_of_some h (by simp only [List.length_cons]; omega)

theorem defused_cons {c : Char} {cs : List Char} (h : ¬ ['*', '/'] <+: c :: cs) :
    defused (c :: cs) = c :: defused cs :=
  Text.editAll_cons_of_none (by rw [Text.swap, Text.after?_eq_none_iff.2 h, Option.map_none])

/-- A text begins with an end of a comment, or with another character. -/
theorem defused_induction {p : List Char → Prop} (nil : p [])
    (close : ∀ rest, p rest → p ('*' :: '/' :: rest))
    (cons : ∀ c cs, ¬ ['*', '/'] <+: c :: cs → p cs → p (c :: cs)) (s : List Char) : p s := by
  match s with
  | [] => exact nil
  | c :: cs =>
    by_cases h : ['*', '/'] <+: c :: cs
    · obtain ⟨rest, hrest⟩ := h
      rw [← hrest]
      exact close rest (defused_induction nil close cons rest)
    · exact cons c cs h (defused_induction nil close cons cs)
termination_by s.length
decreasing_by
  · have hlen := congrArg List.length hrest
    simp only [List.length_cons, List.length_append, List.length_nil] at hlen ⊢
    omega
  · simp

theorem head?_defused (s : List Char) : (defused s).head? = s.head? := by
  cases s with
  | nil => rw [defused_nil]
  | cons c cs =>
    by_cases h : ['*', '/'] <+: c :: cs
    · obtain ⟨rest, hrest⟩ := h
      rw [← hrest, List.cons_append, List.singleton_append, defused_close, List.head?_cons,
        List.head?_cons]
    · rw [defused_cons h, List.head?_cons, List.head?_cons]

/-- **No end of a comment is left.** -/
theorem not_infix_defused (s : List Char) : ¬ ['*', '/'] <:+: defused s := by
  induction s using defused_induction with
  | nil => simp [defused_nil]
  | close rest ih => simpa [defused_close, List.infix_cons_iff, List.cons_prefix_cons] using ih
  | cons c cs h ih =>
    rw [defused_cons h, List.infix_cons_iff]
    rintro (hpre | hinfix)
    · -- what follows begins as before, so the end would have been there
      obtain ⟨rfl, hslash⟩ := List.cons_prefix_cons.1 hpre
      obtain ⟨rest, hrest⟩ := hslash
      have hhead : cs.head? = some '/' := by rw [← head?_defused, ← hrest]; rfl
      obtain ⟨tl, rfl⟩ := List.head?_eq_some_iff.1 hhead
      exact h (by simp)
    · exact ih hinfix

theorem prefix_of_prefix_defused {pat : List Char} (hspace : ' ' ∉ pat) (h : pat <+: defused s) :
    pat <+: s := by
  induction s using defused_induction generalizing pat with
  | nil => rwa [defused_nil] at h
  | close rest _ =>
    rw [defused_close] at h
    match pat with
    | [] => exact List.nil_prefix
    | [c] => exact List.cons_prefix_cons.2 ⟨(List.cons_prefix_cons.1 h).1, List.nil_prefix⟩
    | c :: d :: pat =>
      obtain ⟨-, htl⟩ := List.cons_prefix_cons.1 h
      exact absurd (List.cons_prefix_cons.1 htl).1 fun hd => hspace (by simp [hd])
  | cons c cs hclose ih =>
    rw [defused_cons hclose] at h
    match pat with
    | [] => exact List.nil_prefix
    | d :: pat =>
      obtain ⟨hd, htl⟩ := List.cons_prefix_cons.1 h
      exact List.cons_prefix_cons.2 ⟨hd, ih (fun hmem => hspace (List.mem_cons_of_mem _ hmem)) htl⟩

/-- **A pattern without a space was there before.** -/
theorem infix_of_infix_defused {c : Char} {pat : List Char} (hspace : ' ' ∉ c :: pat)
    (h : c :: pat <:+: defused s) : c :: pat <:+: s := by
  have hpre {s : List Char} := prefix_of_prefix_defused (s := s) hspace
  induction s using defused_induction with
  | nil => rwa [defused_nil] at h
  | close rest ih =>
    have hrest : rest <:+: '*' :: '/' :: rest := (List.suffix_append ['*', '/'] rest).isInfix
    rw [defused_close, List.infix_cons_iff, List.infix_cons_iff, List.infix_cons_iff] at h
    rcases h with h | h | h | h
    · rw [← defused_close] at h
      exact (hpre h).isInfix
    · exact absurd (List.cons_prefix_cons.1 h).1 fun hc => hspace (by simp [hc])
    · -- the slash is there in both
      obtain ⟨rfl, htl⟩ := List.cons_prefix_cons.1 h
      have htl := prefix_of_prefix_defused (fun hmem => hspace (List.mem_cons_of_mem _ hmem)) htl
      have hslash : '/' :: pat <+: '/' :: rest := List.cons_prefix_cons.2 ⟨rfl, htl⟩
      exact hslash.isInfix.trans (List.suffix_cons '*' _).isInfix
    · exact (ih h).trans hrest
  | cons d ds hclose ih =>
    rw [defused_cons hclose, List.infix_cons_iff] at h
    rcases h with h | h
    · rw [← defused_cons hclose] at h
      exact (hpre h).isInfix
    · exact (ih h).trans (List.suffix_cons d ds).isInfix

/-- The inside of a comment: what it holds is due to the remarks. -/
structure Says (remarks : List (Option String)) (inside : String) : Prop where
  unclosed : ¬ ['*', '/'] <:+: inside.toList
  unmarked : (∀ r, some r ∈ remarks → Unmarked r.toList) → Unmarked inside.toList
  one_line : (∀ r, some r ∈ remarks → '\n' ∉ r.toList) → '\n' ∉ inside.toList

/-- Nor does the inside close the comment with a blank before and behind it. -/
theorem Says.spaced_unclosed {remarks : List (Option String)} {inside : String}
    (h : Says remarks inside) : ¬ ['*', '/'] <:+: ' ' :: (inside.toList ++ [' ']) := by
  have hinside : Text.Nowhere (['*', '/'] <+: ·) inside.toList [' '] :=
    Text.nowhere_of_head h.unclosed (by simp)
  refine Text.not_infix_of_nowhere (List.cons_ne_nil _ _) ⟨?_, ?_⟩
  · exact fun hpre => absurd (List.cons_prefix_cons.1 hpre).1 (by decide)
  · exact Text.nowhere_append.2 ⟨hinside, by decide⟩

/-- There is no comment where no remark says anything. -/
theorem comment?_eq_none_iff {remarks : List (Option String)} :
    comment? remarks = none ↔ ∀ r, some r ∈ remarks → r = "" := by
  have hsaid : (remarks.filterMap id).filter (· ≠ "") = [] ↔ ∀ r, some r ∈ remarks → r = "" := by
    simp [List.filter_eq_nil_iff]
  rw [← hsaid, comment?]
  split
  · rename_i hnil
    exact iff_of_true rfl hnil
  · rename_i hcons
    exact iff_of_false (Option.some_ne_none _) hcons

/-- **A comment says its remarks, and nothing in it closes it.** -/
theorem comment?_cases (remarks : List (Option String)) :
    comment? remarks = none ∨
      ∃ inside, comment? remarks = some ("/* " ++ inside ++ " */") ∧ Says remarks inside := by
  unfold comment?
  split
  · exact .inl rfl
  · have hsaid : ∀ r ∈ (remarks.filterMap id).filter (· ≠ ""), some r ∈ remarks := by
      intro r hr
      obtain ⟨o, ho, rfl⟩ := List.mem_filterMap.1 (List.mem_filter.1 hr).1
      exact ho
    refine .inr ⟨_, rfl, ?_, fun h => ?_, fun h => ?_⟩
    · rw [defuse, String.toList_ofList]
      exact not_infix_defused _
    · have hjoined : Unmarked
          (" | ".intercalate ((remarks.filterMap id).filter (· ≠ ""))).toList := by
        refine intercalate_of_forall (p := fun t => Unmarked t.toList) (by decide)
          (fun t u ht hu => ?_) fun r hr => h r (hsaid r hr)
        rw [String.append_assoc, String.toList_append, String.toList_append]
        exact ht.append (hu.append_left (by decide)) (stops_cons (by decide))
      rw [defuse, String.toList_ofList]
      exact fun hinfix => hjoined (infix_of_infix_defused (by decide) hinfix)
    · have hjoined : '\n' ∉ (" | ".intercalate ((remarks.filterMap id).filter (· ≠ ""))).toList := by
        refine intercalate_of_forall (p := fun t => '\n' ∉ t.toList) (by decide)
          (fun t u ht hu => ?_) fun r hr => h r (hsaid r hr)
        simp only [String.toList_append, List.mem_append, not_or]
        exact ⟨⟨ht, by decide⟩, hu⟩
      rw [defuse, String.toList_ofList]
      intro hmem
      have hinfix := infix_of_infix_defused (by decide) ((List.singleton_infix_iff _ _).2 hmem)
      exact hjoined ((List.singleton_infix_iff _ _).1 hinfix)

end LoadSite

end SplitBuild
