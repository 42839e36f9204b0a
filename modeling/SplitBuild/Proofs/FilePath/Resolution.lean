import SplitBuild.FileTree
import SplitBuild.Proofs.FilePath.Components
import Mathlib.Data.List.Infix
/-!
# Two ways to resolve a path

A file tree takes a path component by component and leaves a directory at
each `..`, even the root; `normalize` goes over the segments of a slash
path and keeps the `..` that lead above its start. Both hold what is
resolved so far as a stack of names, and step by step the stacks are the
same as long as no start of the path climbs above the root
(`foldl_enter_eq`). So **a file tree resolves a path that never climbs to
the root and its normal form** (`locates_normal_form`), and paths of one
normal form lead to one place.
-/

namespace SplitBuild

open Component

namespace Path

/-- No start of a path steps back more often than it goes down, so that the
path nowhere leads above the place where it starts. -/
def NeverClimbs (p : String) : Prop :=
  ∀ start, start <+: segments p → start.count ['.', '.'] ≤ start.countP fun seg => IsName seg

instance (p : String) : Decidable (NeverClimbs p) :=
  decidable_of_iff
    (∀ start ∈ (segments p).inits, start.count ['.', '.'] ≤ start.countP fun seg => IsName seg)
    (forall_congr' fun start => by rw [List.mem_inits])

end Path

namespace Location

variable {l : Location} {segs resolved : List (List Char)}

/-- Names lead down one after the other. -/
theorem foldl_enter_names {cs : List Component} (h : ∀ c ∈ cs, c.IsName) (l : Location) :
    cs.foldl enter l = l ++ cs := by
  induction cs generalizing l with
  | nil => rw [List.foldl_nil, List.append_nil]
  | cons c cs ih =>
    obtain ⟨seg, rfl, -⟩ := h c List.mem_cons_self
    rw [List.foldl_cons, ih fun d hd => h d (List.mem_cons_of_mem _ hd)]
    exact List.append_assoc l [named seg] cs

/-- The location that a stack of names leads to, the last name on top. -/
def ofStack (resolved : List (List Char)) : Location := .root :: resolved.reverse.map named

theorem enter_named (seg : List Char) :
    enter (ofStack resolved) (named seg) = ofStack (seg :: resolved) := by
  rw [ofStack, ofStack, List.reverse_cons, List.map_append]
  rfl

theorem enter_parent (seg : List Char) :
    enter (ofStack (seg :: resolved)) .parent = ofStack resolved := by
  have hlast : ofStack (seg :: resolved) = ofStack resolved ++ [named seg] :=
    (enter_named seg).symm
  rw [hlast]
  exact List.dropLast_concat

/-- **The components of a path and its segments resolve alike**, from any
stack of names that the path does not climb out of. -/
theorem foldl_enter_eq (hnames : ∀ seg ∈ resolved, Path.IsName seg)
    (hclimb : ∀ start, start <+: segs →
      start.count ['.', '.'] ≤ (start.countP fun seg => Path.IsName seg) + resolved.length) :
    (segs.filterMap ofSegment?).foldl enter (ofStack resolved) =
      ofStack (segs.foldl Path.step resolved) := by
  induction segs generalizing resolved with
  | nil => rfl
  | cons seg segs ih =>
    have hstart : ∀ start, start <+: segs → (seg :: start).count ['.', '.'] ≤
        ((seg :: start).countP fun s => Path.IsName s) + resolved.length := fun start h =>
      hclimb (seg :: start) (List.cons_prefix_cons.2 ⟨rfl, h⟩)
    rcases ofSegment?_cases seg with ⟨hskip, hnone⟩ | ⟨rfl, hback⟩ | ⟨hname, hsome⟩
    · have hstep : Path.step resolved seg = resolved := if_pos hskip
      have hother : seg ≠ ['.', '.'] ∧ ¬ Path.IsName seg := by
        rcases hskip with rfl | rfl <;> decide
      rw [List.filterMap_cons_none hnone, List.foldl_cons, hstep]
      refine ih hnames fun start h => ?_
      have hcount := hstart start h
      rwa [List.count_cons_of_ne hother.1, List.countP_cons_of_neg (by simpa using hother.2)]
        at hcount
    · -- a step back finds a name on the stack, since the path does not climb
      obtain ⟨top, rest, rfl⟩ : ∃ top rest, resolved = top :: rest := by
        have hcount := hstart [] List.nil_prefix
        rw [List.count_cons_self, List.countP_cons_of_neg (by decide)] at hcount
        refine List.exists_cons_of_length_pos ?_
        simp only [List.count_nil, List.countP_nil] at hcount
        omega
      have hrest : ∀ seg ∈ rest, Path.IsName seg := fun seg hseg =>
        hnames seg (List.mem_cons_of_mem top hseg)
      rw [List.filterMap_cons_some hback, List.foldl_cons, List.foldl_cons, enter_parent,
        Path.step_back (hnames top List.mem_cons_self)]
      refine ih hrest fun start h => ?_
      have hcount := hstart start h
      rw [List.count_cons_self, List.countP_cons_of_neg (by decide), List.length_cons] at hcount
      omega
    · have hpush : ∀ s ∈ seg :: resolved, Path.IsName s := by
        intro s hs
        rcases List.mem_cons.1 hs with rfl | hs
        · exact hname
        · exact hnames s hs
      rw [List.filterMap_cons_some hsome, List.foldl_cons, List.foldl_cons, enter_named,
        Path.step_of_isName hname]
      refine ih hpush fun start h => ?_
      have hcount := hstart start h
      rw [List.count_cons_of_ne hname.ne_back, List.countP_cons_of_pos (by simpa using hname)]
        at hcount
      rw [List.length_cons]
      omega

end Location

namespace FilePath

variable {p : FilePath}

/-- A path that does not step back leads from the root to its components. -/
theorem resolve_eq_components (h : p.isAbsolute) (hback : .parent ∉ p.components)
    (cwd : Location) : p.resolve cwd = p.components := by
  rw [components_of_isAbsolute h] at hback ⊢
  have hnames : ∀ c ∈ p.steps, c.IsName := by
    intro c hc
    rcases eq_parent_or_isName_of_mem_steps hc with rfl | hname
    · exact absurd (List.mem_cons_of_mem _ hc) hback
    · exact hname
  rw [resolve_of_isAbsolute h, Location.foldl_enter_names hnames]
  rfl

/-- The path of a resolved location below the root leads back to it. -/
theorem resolve_ofComponents {l : Location} (h : l.IsResolved) (hroot : l.head? = some .root)
    (cwd : Location) : (ofComponents l).resolve cwd = l := by
  have hcomponents := components_ofComponents h
  have habs : (ofComponents l).isAbsolute := isAbsolute_of_head? (by rw [hcomponents, hroot])
  have hback : .parent ∉ (ofComponents l).components := by
    rw [hcomponents]
    exact h.parent_not_mem
  rw [resolve_eq_components habs hback, hcomponents]

end FilePath

/-! ## The agreement -/

namespace FileTree

open SplitBuild.Path (NeverClimbs normalize)

variable {t u : FileTree} {p q w : FilePath} {s s' : String}

/-- A path as it is spelled from the root: an absolute path as it stands,
wherever it is seen from, and any other path behind the path of the current
directory, which is absolute and has no `.` and no `..`. -/
inductive SpelledFromRoot (t : FileTree) (p : FilePath) : String → Prop
  | absolute (h : p.isAbsolute) : SpelledFromRoot t p p.text
  | relative {w : FilePath} (hw : w.isAbsolute)
      (hplain : ∀ seg ∈ Path.segments w.text, seg ≠ ['.'] ∧ seg ≠ ['.', '.'])
      (hcwd : t.cwd = w.components) (h : ¬ p.isAbsolute) :
      SpelledFromRoot t p (w.text ++ "/" ++ p.text)

/-- A directory that is entered by an absolute path which does not step back
is the current directory. -/
theorem cwd_enter (hw : w.isAbsolute) (hback : .parent ∉ w.components) :
    (t.enter w).cwd = w.components := FilePath.resolve_eq_components hw hback t.cwd

/-- The spelling of a path leads from the root to the location of the path. -/
theorem SpelledFromRoot.locate_eq (h : SpelledFromRoot t p s) :
    t.locate p = ((Path.segments s).filterMap ofSegment?).foldl Location.enter [.root] := by
  cases h with
  | absolute h => exact FilePath.resolve_of_isAbsolute h t.cwd
  | @relative w hw hplain hcwd h =>
    have hback : .parent ∉ w.components := by
      rw [FilePath.components_of_isAbsolute hw]
      intro hparent
      rcases List.mem_cons.1 hparent with hroot | hparent
      · cases hroot
      · obtain ⟨seg, hseg, hsome⟩ := List.mem_filterMap.1 hparent
        rcases ofSegment?_cases seg with ⟨-, hnone⟩ | ⟨hdots, -⟩ | ⟨-, hname⟩
        · rw [hnone] at hsome
          cases hsome
        · exact (hplain seg hseg).2 hdots
        · rw [hname] at hsome
          cases hsome
    have hw' : w.components = w.steps.foldl Location.enter [.root] := by
      rw [← FilePath.resolve_eq_components hw hback t.cwd, FilePath.resolve_of_isAbsolute hw]
    rw [locate, FilePath.resolve_of_not_isAbsolute h, hcwd, hw', Path.segments_append_slash,
      List.filterMap_append, List.foldl_append]
    rfl

/-- Where it never climbs, that is the location of its normal form. -/
theorem SpelledFromRoot.locate_eq_ofStack (h : SpelledFromRoot t p s) (hclimb : NeverClimbs s) :
    t.locate p = Location.ofStack ((Path.segments s).foldl Path.step []) := by
  have hnone : ∀ seg ∈ ([] : List (List Char)), Path.IsName seg := nofun
  rw [h.locate_eq]
  exact Location.foldl_enter_eq hnone hclimb

/-- A path that is spelled from the root leads to a resolved location. -/
theorem SpelledFromRoot.isResolved_locate (h : SpelledFromRoot t p s) :
    (t.locate p).IsResolved := by
  rw [h.locate_eq]
  exact Location.isResolved_root.foldl_enter fun c hc =>
    .inr (FilePath.eq_parent_or_isName_of_mem_steps (p := ⟨s⟩) hc)

/-- The path of the location of a path that never climbs, in text. -/
theorem SpelledFromRoot.ofComponents_locate (h : SpelledFromRoot t p s)
    (hclimb : NeverClimbs s) :
    FilePath.ofComponents (t.locate p) = ⟨"/" ++ normalize s⟩ := by
  have hstack := h.locate_eq_ofStack hclimb
  have hresolved := h.isResolved_locate
  rw [hstack] at hresolved ⊢
  exact FilePath.ofComponents_root_named fun seg hseg =>
    isName_named_iff.1 (hresolved (named seg) (List.mem_map_of_mem hseg))

/-- **A path that never climbs is resolved to the root and its normal
form.** What it is resolved to is resolved to itself, in this tree and in any
other, and paths with one normal form lead to one place. -/
theorem locates_normal_form (h : SpelledFromRoot t p s) (hclimb : NeverClimbs s) :
    FilePath.ofComponents (t.locate p) = ⟨"/" ++ normalize s⟩ ∧
    (∀ u : FileTree, u.locate (.ofComponents (t.locate p)) = t.locate p) ∧
    ∀ u q s', SpelledFromRoot u q s' → NeverClimbs s' → normalize s' = normalize s →
      u.locate q = t.locate p := by
  have hpath := h.ofComponents_locate hclimb
  refine ⟨hpath, fun u => ?_, fun u q s' hq hclimb' hsame => ?_⟩
  · refine FilePath.resolve_ofComponents h.isResolved_locate ?_ u.cwd
    rw [h.locate_eq_ofStack hclimb, Location.ofStack, List.head?_cons]
  · -- a resolved location is read off its path, and the two paths are the same text
    rw [← FilePath.components_ofComponents hq.isResolved_locate, hq.ofComponents_locate hclimb',
      hsame, ← hpath, FilePath.components_ofComponents h.isResolved_locate]

/-- A path with steps of its own, seen from a directory below the root, and
an absolute path to the same place. -/
theorem detour_located :
    SpelledFromRoot (empty.enter ⟨"/other"⟩) ⟨"./foo/..//bar/"⟩ "/other/./foo/..//bar/" ∧
      NeverClimbs "/other/./foo/..//bar/" ∧
      FilePath.ofComponents ((empty.enter ⟨"/other"⟩).locate ⟨"./foo/..//bar/"⟩) =
        ⟨"/other/bar"⟩ ∧
      empty.locate ⟨"/x/.././other/bar"⟩ =
        (empty.enter ⟨"/other"⟩).locate ⟨"./foo/..//bar/"⟩ := by
  have hspelled : SpelledFromRoot (empty.enter ⟨"/other"⟩) ⟨"./foo/..//bar/"⟩
      "/other/./foo/..//bar/" :=
    .relative (by decide) (by decide) (cwd_enter (by decide) (by decide)) (by decide)
  have hclimb : NeverClimbs "/other/./foo/..//bar/" := by decide
  obtain ⟨htext, -, hsame⟩ := locates_normal_form hspelled hclimb
  have habsolute : SpelledFromRoot empty ⟨"/x/.././other/bar"⟩ "/x/.././other/bar" :=
    .absolute (by decide)
  refine ⟨hspelled, hclimb, ?_, hsame _ _ _ habsolute (by decide) (by decide)⟩
  rw [htext]
  decide

end FileTree

end SplitBuild
