import SplitBuild.Proofs.FilePath.Resolution
import SplitBuild.Proofs.FileTree.Entries
/-!
# Where assets lie in an output directory

An asset lies where its name leads from the output directory. With a
directory that is given by an absolute path and a name of plain segments,
this is the location of the directory and behind it the names
(`locate_join`). Every resolved location below the directory is the place of
exactly one such name (`exists_place_eq`, `place_injective`), which is the
name that is read off it (`nameUnder?_place`).
-/

namespace SplitBuild

open Component

namespace OutputDirectory

variable {dist : FilePath} {name other : String} {l : Location} {segs : List (List Char)}

/-- An absolute path that does not step back. -/
structure IsStraight (dist : FilePath) : Prop where
  isAbsolute : dist.isAbsolute
  parent_not_mem : .parent ∉ dist.components

/-- The location of an asset of an output directory. -/
def place (dist : FilePath) (name : String) : Location :=
  dist.components ++ (Path.segments name).map named

/-- The segments of a plain name are names without slashes. -/
theorem names_of_isPlain (h : Path.IsPlain name) :
    ∀ seg ∈ Path.segments name, Path.IsName seg ∧ '/' ∉ seg := fun seg hseg =>
  ⟨h seg hseg, Path.slash_not_mem_of_mem_segments hseg⟩

theorem steps_of_isPlain (h : Path.IsPlain name) :
    FilePath.steps ⟨name⟩ = (Path.segments name).map named := filterMap_ofSegment? h

theorem not_isAbsolute_of_isPlain (h : Path.IsPlain name) : ¬ (FilePath.mk name).isAbsolute := by
  rw [← Path.ofSegments_segments name]
  exact FilePath.not_isAbsolute_ofSegments (names_of_isPlain h)

theorem IsStraight.text_ne_empty (h : IsStraight dist) : dist.text ≠ "" := by
  intro hempty
  have habs := h.isAbsolute
  rw [FilePath.isAbsolute, hempty] at habs
  cases habs

theorem IsStraight.isResolved (h : IsStraight dist) : Location.IsResolved dist.components := by
  have hresolved := FilePath.isResolved_resolve (p := dist) Location.isResolved_root
  rwa [FilePath.resolve_eq_components h.isAbsolute h.parent_not_mem] at hresolved

theorem IsStraight.exists_cons (h : IsStraight dist) :
    ∃ rest, dist.components = .root :: rest :=
  ⟨dist.steps, FilePath.components_of_isAbsolute h.isAbsolute⟩

/-- The components of the path to an asset. -/
theorem components_join (hdist : IsStraight dist) (h : Path.IsPlain name) :
    (dist.join ⟨name⟩).components = place dist name := by
  have hname := not_isAbsolute_of_isPlain h
  rw [FilePath.components_of_isAbsolute (FilePath.isAbsolute_join hdist.isAbsolute hname),
    FilePath.steps_join hdist.text_ne_empty hname, steps_of_isPlain h, place,
    FilePath.components_of_isAbsolute hdist.isAbsolute, List.cons_append]

theorem isName_of_mem_names (h : Path.IsPlain name) :
    ∀ c ∈ (Path.segments name).map named, c.IsName := by
  intro c hc
  obtain ⟨seg, hseg, rfl⟩ := List.mem_map.1 hc
  exact isName_named_iff.2 (names_of_isPlain h seg hseg)

theorem isResolved_place (hdist : IsStraight dist) (h : Path.IsPlain name) :
    (place dist name).IsResolved := by
  have hnames := isName_of_mem_names h
  rw [place, ← Location.foldl_enter_names hnames]
  exact hdist.isResolved.foldl_enter fun c hc => .inr (.inr (hnames c hc))

/-- **The path to an asset leads to its place.** -/
theorem locate_join (hdist : IsStraight dist) (h : Path.IsPlain name) (t : FileTree) :
    t.locate (dist.join ⟨name⟩) = place dist name := by
  have hcomponents := components_join hdist h
  have habs := FilePath.isAbsolute_join hdist.isAbsolute (not_isAbsolute_of_isPlain h)
  have hback : .parent ∉ (dist.join ⟨name⟩).components := by
    rw [hcomponents]
    exact (isResolved_place hdist h).parent_not_mem
  rw [FileTree.locate, FilePath.resolve_eq_components habs hback, hcomponents]

theorem locate_dist (hdist : IsStraight dist) (t : FileTree) : t.locate dist = dist.components :=
  FilePath.resolve_eq_components hdist.isAbsolute hdist.parent_not_mem t.cwd

/-- Two names do not have one place. -/
theorem place_injective (h : place dist name = place dist other) : name = other := by
  have hsegs := List.map_injective_iff.2 named_injective (List.append_cancel_left h)
  rw [← Path.ofSegments_segments name, hsegs, Path.ofSegments_segments]

/-- **Each location below the directory is the place of a plain name.** -/
theorem exists_place_eq (hdist : IsStraight dist) (hl : l.IsResolved)
    (hbelow : dist.components <+: l) (hne : l ≠ dist.components) :
    ∃ name, Path.IsPlain name ∧ place dist name = l := by
  obtain ⟨rest, rfl⟩ := hbelow
  obtain ⟨front, hfront⟩ := hdist.exists_cons
  have hinner : Location.inner (dist.components ++ rest) = front ++ rest := by
    rw [hfront]
    rfl
  obtain ⟨segs, rfl, hnames⟩ := exists_map_named fun c hc => hl c (by
    rw [hinner]
    exact List.mem_append_right front hc)
  have hsegs : segs ≠ [] := by
    rintro rfl
    exact hne (List.append_nil _)
  have hcut : Path.segments (Path.ofSegments segs) = segs :=
    Path.segments_ofSegments hsegs fun seg hseg => (hnames seg hseg).2
  refine ⟨Path.ofSegments segs, fun seg hseg => ?_, by rw [place, hcut]⟩
  rw [hcut] at hseg
  exact (hnames seg hseg).1

/-- The name of an asset is read off the path of its place. -/
theorem nameUnder?_place (hdist : IsStraight dist) (h : Path.IsPlain name) :
    (FilePath.ofComponents (place dist name)).nameUnder? dist = some name := by
  have hbelow : dist.components.isPrefixOf (place dist name) :=
    List.isPrefixOf_iff_prefix.2 (List.prefix_append _ _)
  rw [FilePath.nameUnder?, FilePath.components_ofComponents (isResolved_place hdist h),
    if_pos hbelow, place, List.drop_left, FilePath.ofComponents_named (names_of_isPlain h),
    Path.ofSegments_segments]

/-! ## Directories above places -/

theorem head?_place (hdist : IsStraight dist) (name : String) :
    (place dist name).head? = some .root := by
  obtain ⟨rest, hrest⟩ := hdist.exists_cons
  rw [place, hrest]
  rfl

/-- A place ends in a name. -/
theorem exists_place_concat (dist : FilePath) (name : String) :
    ∃ top seg, place dist name = top ++ [named seg] := by
  obtain ⟨front, seg, hsegs⟩ :=
    (List.eq_nil_or_concat (Path.segments name)).resolve_left (Text.pieces_ne_nil '/' name.toList)
  refine ⟨dist.components ++ front.map named, seg, ?_⟩
  rw [place, hsegs, List.concat_eq_append, List.map_append, List.append_assoc, List.map_singleton]

theorem head?_dropLast_place (hdist : IsStraight dist) (name : String) :
    (place dist name).dropLast.head? = some .root := by
  have hhead := head?_place hdist name
  obtain ⟨top, seg, hplace⟩ := exists_place_concat dist name
  rw [hplace] at hhead ⊢
  rw [List.dropLast_concat]
  cases top with
  | nil => cases hhead
  | cons c top => exact hhead

/-- The directory right above a place. -/
theorem dropLast_mem_ancestors (hdist : IsStraight dist) (name : String) :
    (place dist name).dropLast ∈ (place dist name).ancestors := by
  refine Location.mem_ancestors_iff.2 ⟨List.dropLast_prefix _, ?_, fun _ hnil => ?_⟩
  · obtain ⟨top, seg, hplace⟩ := exists_place_concat dist name
    rw [hplace, List.dropLast_concat]
    exact fun h => List.cons_ne_nil _ _ (List.self_eq_append_right.1 h)
  · have hhead := head?_dropLast_place hdist name
    rw [hnil] at hhead
    cases hhead

/-- It is where the parent of the path leads. -/
theorem parent?_join (hdist : IsStraight dist) (h : Path.IsPlain name) :
    (dist.join ⟨name⟩).parent? = some (.ofComponents (place dist name).dropLast) := by
  obtain ⟨top, seg, hplace⟩ := exists_place_concat dist name
  have hlast : (place dist name).getLast? = some (named seg) := by
    rw [hplace, List.getLast?_concat]
  rw [FilePath.parent?, components_join hdist h, hlast]
  rfl

theorem locate_parent (hdist : IsStraight dist) (h : Path.IsPlain name) (t : FileTree) :
    t.locate (.ofComponents (place dist name).dropLast) = (place dist name).dropLast :=
  FilePath.resolve_ofComponents ((isResolved_place hdist h).initial (List.dropLast_prefix _))
    (head?_dropLast_place hdist name) t.cwd

end OutputDirectory

end SplitBuild
