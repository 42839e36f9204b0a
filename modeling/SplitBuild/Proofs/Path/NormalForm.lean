import SplitBuild.Proofs.Path.Relative
import Mathlib.Logic.ExistsUnique
/-!
# Normal forms of paths

`normalize` takes the segments of a path one after the other and keeps those
that count on a stack. At every point the stack holds names above a run of
steps back, and a further segment keeps it so (`IsNormal.step`). Segments of
that form are left as they are (`resolve_of_isNormal`), so they can take the
place of any others that lead to them, whatever follows
(`foldl_step_segments_normalize`). Hence **normal forms are canonical, and a
directory may be replaced by its normal form** (`normalize_canonical`).
-/

namespace SplitBuild

namespace Path

variable {seg : List Char} {segs names resolved : List (List Char)} {p dir dir' : String} {n : Nat}

/-! ## Normal segments -/

/-- Segments that nothing is left to do about: none is empty, holds a slash, or
is a dot, and steps back stand only at the front. -/
structure IsNormal (segs : List (List Char)) : Prop where
  ne_nil : ∀ seg ∈ segs, seg ≠ []
  slash_not_mem : ∀ seg ∈ segs, '/' ∉ seg
  ne_here : ∀ seg ∈ segs, seg ≠ ['.']
  back_leads : ∃ n rest, segs = List.replicate n ['.', '.'] ++ rest ∧ ['.', '.'] ∉ rest

/-- A step back is a segment, and no name. -/
theorem isNormal_iff : IsNormal segs ↔ ∃ n names, segs = List.replicate n ['.', '.'] ++ names ∧
    ∀ seg ∈ names, IsName seg ∧ '/' ∉ seg := by
  constructor
  · rintro ⟨hnil, hslash, hhere, n, names, rfl, hback⟩
    refine ⟨n, names, rfl, fun seg hseg => ?_⟩
    have hmem := List.mem_append_right (List.replicate n ['.', '.']) hseg
    exact ⟨⟨hnil seg hmem, hhere seg hmem, fun h => hback (h ▸ hseg)⟩, hslash seg hmem⟩
  · rintro ⟨n, names, rfl, hnames⟩
    have hall : ∀ seg ∈ List.replicate n ['.', '.'] ++ names,
        seg = ['.', '.'] ∨ IsName seg ∧ '/' ∉ seg := fun seg hseg =>
      (List.mem_append.1 hseg).imp List.eq_of_mem_replicate (hnames seg)
    refine ⟨fun seg hseg => ?_, fun seg hseg => ?_, fun seg hseg => ?_, n, names, rfl,
      fun hback => (hnames _ hback).1.ne_back rfl⟩
    · rcases hall seg hseg with rfl | ⟨hname, -⟩
      · decide
      · exact hname.ne_nil
    · rcases hall seg hseg with rfl | ⟨-, hslash⟩
      · decide
      · exact hslash
    · rcases hall seg hseg with rfl | ⟨hname, -⟩
      · decide
      · exact hname.ne_here

/-! ## One segment, and several -/

/-- What a segment does to what is resolved so far. -/
theorem step_cases (seg : List Char) :
    (∀ resolved, step resolved seg = resolved) ∨ seg = ['.', '.'] ∨ IsName seg := by
  by_cases hskip : seg = [] ∨ seg = ['.']
  · exact .inl fun resolved => if_pos hskip
  · obtain ⟨hnil, hhere⟩ := not_or.1 hskip
    by_cases hback : seg = ['.', '.']
    · exact .inr (.inl hback)
    · exact .inr (.inr ⟨hnil, hhere, hback⟩)

/-- Steps back above the start add up. -/
theorem step_replicate_back (n : Nat) :
    step (List.replicate n ['.', '.']) ['.', '.'] = List.replicate (n + 1) ['.', '.'] := by
  cases n with
  | zero => rfl
  | succ n => rfl

/-- **A segment keeps the stack normal.** -/
theorem IsNormal.step (h : IsNormal resolved.reverse) (hslash : '/' ∉ seg) :
    IsNormal (step resolved seg).reverse := by
  obtain ⟨n, names, hresolved, hnames⟩ := isNormal_iff.1 h
  rw [List.reverse_eq_iff, List.reverse_append, List.reverse_replicate] at hresolved
  rcases step_cases seg with hskip | rfl | hname
  · rw [hskip]
    exact h
  · subst hresolved
    -- a step back leaves the last name, or joins the steps back where there is none
    rcases List.eq_nil_or_concat names with rfl | ⟨names, top, rfl⟩
    · rw [List.reverse_nil, List.nil_append, step_replicate_back, List.reverse_replicate]
      exact isNormal_iff.2 ⟨n + 1, [], (List.append_nil _).symm, nofun⟩
    · have htop := (hnames top (by simp)).1
      rw [List.concat_eq_append, List.reverse_concat, List.cons_append, step_back htop,
        List.reverse_append, List.reverse_reverse, List.reverse_replicate]
      exact isNormal_iff.2 ⟨n, names, rfl, fun seg hseg => hnames seg (by simp [hseg])⟩
  · rw [step_of_isName hname, List.reverse_cons, hresolved]
    refine isNormal_iff.2 ⟨n, names ++ [seg], by simp, fun other hother => ?_⟩
    rcases List.mem_append.1 hother with hother | hother
    · exact hnames other hother
    · rw [List.mem_singleton.1 hother]
      exact ⟨hname, hslash⟩

/-- So does a run of segments. -/
theorem IsNormal.foldl_step (h : IsNormal resolved.reverse) (hslash : ∀ seg ∈ segs, '/' ∉ seg) :
    IsNormal (segs.foldl Path.step resolved).reverse := by
  induction segs generalizing resolved with
  | nil => exact h
  | cons seg segs ih =>
    exact ih (h.step (hslash seg List.mem_cons_self)) fun other hother =>
      hslash other (List.mem_cons_of_mem seg hother)

/-- **What a path is resolved to is normal.** -/
theorem isNormal_resolve (p : String) : IsNormal (resolve (segments p)) := by
  have hstart : IsNormal ([] : List (List Char)).reverse := isNormal_iff.2 ⟨0, [], rfl, nofun⟩
  exact hstart.foldl_step fun seg hseg => slash_not_mem_of_mem_segments hseg

/-- **Normal segments are left as they are.** -/
theorem resolve_of_isNormal (h : IsNormal segs) : resolve segs = segs := by
  obtain ⟨n, names, rfl, hnames⟩ := isNormal_iff.1 h
  have hback : ∀ n, (List.replicate n ['.', '.']).foldl Path.step [] =
      List.replicate n ['.', '.'] := by
    intro n
    induction n with
    | zero => rfl
    | succ n ih =>
      rw [List.replicate_succ', List.foldl_append, ih, ← List.replicate_succ']
      exact step_replicate_back n
  rw [resolve, List.foldl_append, hback, foldl_step_names fun seg hseg => (hnames seg hseg).1,
    List.reverse_append, List.reverse_reverse, List.reverse_replicate]

/-! ## Paths -/

/-- The path that segments make resolves as the segments do; the path of no
segments has an empty one, which does not count. -/
theorem foldl_step_segments_ofSegments (h : ∀ seg ∈ segs, '/' ∉ seg)
    (resolved : List (List Char)) :
    (segments (ofSegments segs)).foldl step resolved = segs.foldl step resolved := by
  cases segs with
  | nil => rfl
  | cons seg segs => rw [segments_ofSegments (List.cons_ne_nil seg segs) h]

/-- **A path and its normal form resolve alike.** -/
theorem foldl_step_segments_normalize (p : String) :
    (segments (normalize p)).foldl step [] = (segments p).foldl step [] := by
  have hnormal := isNormal_resolve p
  have hresolve := resolve_of_isNormal hnormal
  rw [normalize, foldl_step_segments_ofSegments hnormal.slash_not_mem]
  rw [resolve] at hresolve
  rw [← List.reverse_inj, hresolve, resolve]

theorem normalize_ofSegments (h : IsNormal segs) :
    normalize (ofSegments segs) = ofSegments segs := by
  have hresolve := resolve_of_isNormal h
  rw [resolve] at hresolve
  rw [normalize, resolve, foldl_step_segments_ofSegments h.slash_not_mem, hresolve]

/-- Normal segments are read off the path that they make. -/
theorem eq_of_ofSegments_eq (h : IsNormal segs) (h' : IsNormal names)
    (heq : ofSegments segs = ofSegments names) : segs = names := by
  have hread : ∀ {l : List (List Char)}, IsNormal l → l = resolve (segments (ofSegments l)) := by
    intro l hl
    rw [resolve, foldl_step_segments_ofSegments hl.slash_not_mem]
    exact (resolve_of_isNormal hl).symm
  rw [hread h, hread h', heq]

/-- **A directory may be replaced by its normal form.** -/
theorem normalize_append_slash (a b : String) :
    normalize (a ++ "/" ++ b) = normalize (normalize a ++ "/" ++ b) := by
  rw [normalize, normalize, resolve, resolve, segments_append_slash, segments_append_slash,
    List.foldl_append, List.foldl_append, foldl_step_segments_normalize]

/-- The empty directory is left out in front of a path. It would not count. -/
theorem normalize_join (dir p : String) : normalize (join dir p) = normalize (dir ++ "/" ++ p) := by
  unfold join
  split
  · rename_i hempty
    rw [String.isEmpty_iff.1 hempty, normalize, normalize, segments_append_slash]
    rfl
  · rfl

/-- **Normal forms are canonical.** Every path has one, which is made of normal
segments and of no others; paths made of normal segments are left as they are,
and so is a normal form. What a path leads to as seen from a directory stays
the same where the directory is replaced by its normal form, so it does not
depend on how the directory is spelled. -/
theorem normalize_canonical :
    (∀ p, ∃! segs, IsNormal segs ∧ normalize p = ofSegments segs) ∧
    (∀ segs, IsNormal segs → normalize (ofSegments segs) = ofSegments segs) ∧
    (∀ p, normalize (normalize p) = normalize p) ∧
    (∀ a b, normalize (a ++ "/" ++ b) = normalize (normalize a ++ "/" ++ b)) ∧
    ∀ dir dir' p, normalize dir = normalize dir' →
      normalize (join dir p) = normalize (join dir' p) := by
  refine ⟨fun p => ⟨resolve (segments p), ⟨isNormal_resolve p, rfl⟩, ?_⟩,
    fun segs h => normalize_ofSegments h, fun p => normalize_ofSegments (isNormal_resolve p),
    normalize_append_slash, fun dir dir' p h => ?_⟩
  · rintro segs ⟨hsegs, heq⟩
    exact eq_of_ofSegments_eq hsegs (isNormal_resolve p) heq.symm
  · rw [normalize_join, normalize_join, normalize_append_slash dir, h, ← normalize_append_slash]

/-- From above the start, and from a directory with two spellings. -/
theorem detour_normalized :
    normalize (ofSegments [['.', '.'], ['l', 'i', 'b']]) = "../lib" ∧
      normalize (join "pages//home/." "../../../lib/x") =
        normalize (join "pages/old/../home" "../../../lib/x") := by
  obtain ⟨-, hfixed, -, -, hspelled⟩ := normalize_canonical
  have hnormal : IsNormal [['.', '.'], ['l', 'i', 'b']] :=
    isNormal_iff.2 ⟨1, [['l', 'i', 'b']], rfl, by decide⟩
  refine ⟨?_, hspelled _ _ _ (by decide)⟩
  rw [hfixed _ hnormal]
  decide

end Path

end SplitBuild
