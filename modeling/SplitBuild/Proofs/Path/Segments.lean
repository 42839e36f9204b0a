import SplitBuild.Path
/-!
# Segments of paths that are put together

A path is cut at its slashes and nowhere else. So the segments of two paths
with a slash between them are those of the one and those of the other
(`segments_append_slash`), and segments without slashes are read off the
path that they make (`segments_ofSegments`). From there a path resolves
against a directory as the segments of the two do, one after the other
(`normalize_join_ofSegments`).
-/

namespace SplitBuild

namespace Text

variable {sep : Char}

/-- A text is cut at a separator, whatever stands before and behind it. -/
theorem pieces_append_cons (s t : List Char) :
    pieces sep (s ++ sep :: t) = pieces sep s ++ pieces sep t := by
  induction s with
  | nil => simp only [List.nil_append, pieces, if_true, List.singleton_append]
  | cons c s ih =>
    rw [List.cons_append, pieces, pieces, ih]
    by_cases hc : c = sep
    · rw [if_pos hc, if_pos hc, List.cons_append]
    · rw [if_neg hc, if_neg hc]
      cases hs : pieces sep s with
      | nil => exact absurd hs (pieces_ne_nil sep s)
      | cons p ps => rfl

/-- A text without separators is one piece. -/
theorem pieces_of_not_mem {s : List Char} (h : sep ∉ s) : pieces sep s = [s] := by
  induction s with
  | nil => rfl
  | cons c s ih =>
    obtain ⟨hc, hs⟩ := not_or.1 (mt List.mem_cons.2 h)
    rw [pieces, if_neg (Ne.symm hc), ih hs]

/-- Pieces without separators are cut out of the text that they make. -/
theorem pieces_intercalate {ps : List (List Char)} (hne : ps ≠ []) (h : ∀ p ∈ ps, sep ∉ p) :
    pieces sep ([sep].intercalate ps) = ps := by
  induction ps with
  | nil => exact absurd rfl hne
  | cons p ps ih =>
    have hp : sep ∉ p := h p List.mem_cons_self
    cases ps with
    | nil => rw [List.intercalate_singleton, pieces_of_not_mem hp]
    | cons q qs =>
      have hrest : pieces sep ([sep].intercalate (q :: qs)) = q :: qs :=
        ih (List.cons_ne_nil q qs) fun r hr => h r (List.mem_cons_of_mem p hr)
      rw [List.intercalate_cons_cons, List.append_assoc, List.singleton_append,
        pieces_append_cons, hrest, pieces_of_not_mem hp, List.singleton_append]

/-- There is one piece more than there are separators. -/
theorem length_pieces (sep : Char) (s : List Char) :
    (pieces sep s).length = s.count sep + 1 := by
  induction s with
  | nil => rfl
  | cons c s ih =>
    unfold pieces
    by_cases hc : c = sep
    · subst hc
      rw [if_pos rfl, List.length_cons, ih, List.count_cons_self]
    · rw [if_neg hc, List.count_cons_of_ne hc, ← ih]
      cases hs : pieces sep s with
      | nil => exact absurd hs (pieces_ne_nil sep s)
      | cons p ps => rfl

end Text

namespace Path

/-- **The segments of two paths with a slash between them.** -/
theorem segments_append_slash (p q : String) :
    segments (p ++ "/" ++ q) = segments p ++ segments q := by
  have hchars : (p ++ "/" ++ q).toList = p.toList ++ '/' :: q.toList := by
    rw [String.toList_append, String.toList_append, List.append_assoc]
    rfl
  rw [segments, hchars, Text.pieces_append_cons, segments, segments]

/-- No segment holds a slash. -/
theorem slash_not_mem_of_mem_segments {p : String} {seg : List Char} (h : seg ∈ segments p) :
    '/' ∉ seg := Text.sep_not_mem_of_mem_pieces h

/-- Segments are read off the path that they make. -/
theorem segments_ofSegments {segs : List (List Char)} (hne : segs ≠ [])
    (h : ∀ seg ∈ segs, '/' ∉ seg) : segments (ofSegments segs) = segs := by
  rw [segments, ofSegments, String.toList_ofList, Text.pieces_intercalate hne h]

/-- Paths that are one path as seen from a directory are one path. -/
theorem join_injective (dir : String) : Function.Injective (join dir) := by
  intro p q h
  simp only [join] at h
  split at h
  · exact h
  · refine String.toList_injective ?_
    simpa using congrArg String.toList h

/-- An asset has one segment more than it has directories above it. -/
theorem length_segments (p : String) : (segments p).length = depth p + 1 :=
  Text.length_pieces '/' p.toList

/-- A path resolves against a directory as the segments of the directory and
those of the path do, one after the other. -/
theorem normalize_join_ofSegments {dirs : List (List Char)} (hslash : ∀ dir ∈ dirs, '/' ∉ dir)
    (hname : ∀ dir ∈ dirs, dir ≠ []) (p : String) :
    normalize (join (ofSegments dirs) p) = ofSegments (resolve (dirs ++ segments p)) := by
  cases dirs with
  | nil => rfl
  | cons dir dirs =>
    have hsegments : segments (ofSegments (dir :: dirs)) = dir :: dirs :=
      segments_ofSegments (List.cons_ne_nil dir dirs) hslash
    have hnonempty : ¬ (ofSegments (dir :: dirs)).isEmpty := by
      intro hempty
      rw [String.isEmpty_iff.1 hempty] at hsegments
      obtain ⟨hdir, -⟩ := List.cons.inj hsegments
      exact hname dir List.mem_cons_self hdir.symm
    rw [join, if_neg hnonempty, normalize, segments_append_slash, hsegments]

end Path

end SplitBuild
