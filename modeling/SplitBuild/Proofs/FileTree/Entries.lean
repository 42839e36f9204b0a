import SplitBuild.FileTree
import SplitBuild.Proofs.FilePath.Components
/-!
# What stands in a file tree

A write leaves a file at its target and directories above it, and nothing
else changes (`get?_withFile`); making directories leaves them at the
target and above it (`get?_withDirectories`). What lies above a location
are its proper starts, but for the one above the root
(`mem_ancestors_iff`). So files that are put apart from each other are all
there (`get?_withFiles_of_mem`). A walk fails where no directory stands, and
otherwise **lists the files at and below its location, each once and in
the order of their components** (`lists_of_walk`).
-/

namespace SplitBuild

/-! ## Locations above others -/

namespace Location

variable {l q top : Location}

theorem mem_properStarts_iff {cs start : List Component} :
    start ∈ properStarts cs ↔ start <+: cs ∧ start ≠ cs := by
  induction cs generalizing start with
  | nil =>
    rw [properStarts, List.prefix_nil]
    exact iff_of_false List.not_mem_nil fun h => h.2 h.1
  | cons c cs ih =>
    rw [properStarts, List.mem_cons, List.mem_map]
    cases start with
    | nil => exact iff_of_true (.inl rfl) ⟨List.nil_prefix, nofun⟩
    | cons d start =>
      rw [List.cons_prefix_cons]
      constructor
      · rintro (hnil | ⟨other, hother, heq⟩)
        · cases hnil
        · obtain ⟨rfl, rfl⟩ := List.cons.inj heq
          obtain ⟨hstart, hne⟩ := ih.1 hother
          exact ⟨⟨rfl, hstart⟩, fun h => hne (List.cons.inj h).2⟩
      · rintro ⟨⟨rfl, hstart⟩, hne⟩
        exact .inr ⟨start, ih.2 ⟨hstart, fun h => hne (congrArg (d :: ·) h)⟩, rfl⟩

/-- **What lies above a location**: its proper starts; but nothing lies above
the root. -/
theorem mem_ancestors_iff : q ∈ l.ancestors ↔
    q <+: l ∧ q ≠ l ∧ (l.head? = some .root → q ≠ []) := by
  unfold ancestors
  split
  · rename_i rest
    rw [List.mem_map]
    constructor
    · rintro ⟨start, hstart, rfl⟩
      obtain ⟨hstarts, hne⟩ := mem_properStarts_iff.1 hstart
      exact ⟨List.cons_prefix_cons.2 ⟨rfl, hstarts⟩, fun h => hne (List.cons.inj h).2, nofun⟩
    · rintro ⟨hstarts, hne, hnil⟩
      obtain ⟨c, start, rfl⟩ := List.exists_cons_of_ne_nil (hnil rfl)
      obtain ⟨rfl, hstart⟩ := List.cons_prefix_cons.1 hstarts
      exact ⟨start, mem_properStarts_iff.2 ⟨hstart, fun h => hne (congrArg _ h)⟩, rfl⟩
  · rename_i hroot
    have hhead : l.head? ≠ some .root := by
      intro h
      obtain ⟨rest, hrest⟩ := List.head?_eq_some_iff.1 h
      exact hroot rest hrest
    rw [mem_properStarts_iff]
    exact and_congr_right fun _ => (and_iff_left fun h => absurd h hhead).symm

theorem prefix_of_mem_ancestors (h : q ∈ l.ancestors) : q <+: l := (mem_ancestors_iff.1 h).1

theorem not_mem_ancestors_self (l : Location) : l ∉ l.ancestors := fun h =>
  (mem_ancestors_iff.1 h).2.1 rfl

/-- What lies above a location above another one lies above that one. -/
theorem mem_ancestors_trans {m : Location} (hq : q ∈ m.ancestors) (hm : m ∈ l.ancestors) :
    q ∈ l.ancestors := by
  obtain ⟨hqm, hne, hroot⟩ := mem_ancestors_iff.1 hq
  obtain ⟨hml, -, hroot'⟩ := mem_ancestors_iff.1 hm
  refine mem_ancestors_iff.2 ⟨hqm.trans hml, ?_, fun hhead => hroot ?_⟩
  · rintro rfl
    exact hne (hqm.eq_of_length_le hml.length_le)
  · obtain ⟨c, rest, rfl⟩ := List.exists_cons_of_ne_nil (hroot' hhead)
    obtain ⟨more, rfl⟩ := hml
    exact hhead

end Location

namespace FileTree

variable {t : FileTree} {l q : Location} {ls : List Location} {contents : ByteArray}

theorem ext_get? {u : FileTree} (hcwd : t.cwd = u.cwd) (h : ∀ q, t.get? q = u.get? q) : t = u := by
  obtain ⟨es, cwd⟩ := t
  obtain ⟨es', cwd'⟩ := u
  obtain rfl : cwd = cwd' := hcwd
  obtain rfl : es = es' := Std.ExtTreeMap.ext_getElem? h
  rfl

theorem get?_insert (entry : FileEntry) :
    get? { t with entries := t.entries.insert l entry } q =
      if q = l then some entry else t.get? q := by
  rw [get?, Std.ExtTreeMap.getElem?_insert]
  by_cases hq : q = l
  · rw [if_pos hq, if_pos (Std.compare_eq_iff_eq.2 hq.symm)]
  · rw [if_neg hq, if_neg (mt Std.compare_eq_iff_eq.1 (Ne.symm hq)), get?]

/-- **Making directories changes nothing but where they are made.** -/
@[simp] theorem get?_withDirectories (t : FileTree) (ls : List Location) (q : Location) :
    (t.withDirectories ls).get? q = if q ∈ ls then some .directory else t.get? q := by
  induction ls generalizing t with
  | nil => simp [withDirectories]
  | cons l ls ih =>
    have hstep : t.withDirectories (l :: ls) =
        withDirectories { t with entries := t.entries.insert l .directory } ls := rfl
    rw [hstep, ih, get?_insert]
    by_cases hls : q ∈ ls
    · rw [if_pos hls, if_pos (List.mem_cons_of_mem l hls)]
    · have hmem : q ∈ l :: ls ↔ q = l := by rw [List.mem_cons, or_iff_left hls]
      simp only [if_neg hls, hmem]

/-- **A write leaves the file at its target and directories above it**, and
nothing else changes. -/
theorem get?_withFile (t : FileTree) (l : Location) (contents : ByteArray) (q : Location) :
    (t.withFile l contents).get? q =
      if q = l then some (.file contents)
      else if q ∈ l.ancestors then some .directory else t.get? q := by
  rw [withFile, get?_withDirectories, get?_insert]
  by_cases hq : q = l
  · subst hq
    rw [if_neg (Location.not_mem_ancestors_self q), if_pos rfl, if_pos rfl]
  · rw [if_neg hq, if_neg hq]

/-- Directories above a file are there after the file is written. -/
theorem withFile_withDirectories {ls : List Location} (h : ∀ q ∈ ls, q ∈ l.ancestors) :
    (t.withDirectories ls).withFile l contents = t.withFile l contents := by
  refine ext_get? rfl fun q => ?_
  rw [get?_withFile, get?_withFile, get?_withDirectories]
  split
  · rfl
  · split
    · rfl
    · rename_i habove
      rw [if_neg (mt (h q) habove)]

/-! ## Trees that operations make -/

/-- Every location of a tree is resolved, and so is the current directory. -/
structure WellFormed (t : FileTree) : Prop where
  cwd : t.cwd.IsResolved
  entries : ∀ {l}, t.get? l ≠ none → l.IsResolved

theorem wellFormed_empty : WellFormed empty where
  cwd := Location.isResolved_root
  entries h := absurd Std.ExtTreeMap.getElem?_empty h

theorem WellFormed.locate (h : t.WellFormed) (p : FilePath) : (t.locate p).IsResolved :=
  FilePath.isResolved_resolve h.cwd

theorem WellFormed.enter (h : t.WellFormed) (p : FilePath) : (t.enter p).WellFormed where
  cwd := h.locate p
  entries := h.entries

theorem WellFormed.withDirectories (h : t.WellFormed) (hls : ∀ l ∈ ls, l.IsResolved) :
    (t.withDirectories ls).WellFormed where
  cwd := h.cwd
  entries {q} hq := by
    rw [get?_withDirectories] at hq
    split at hq
    · exact hls q ‹_›
    · exact h.entries hq

theorem WellFormed.withFile (h : t.WellFormed) (hl : l.IsResolved) (contents : ByteArray) :
    (t.withFile l contents).WellFormed where
  cwd := h.cwd
  entries {q} hq := by
    rw [get?_withFile] at hq
    split at hq
    · rename_i heq
      exact heq ▸ hl
    · split at hq
      · rename_i habove
        exact hl.initial (Location.prefix_of_mem_ancestors habove)
      · exact h.entries hq

/-! ## Files at several places -/

variable {puts : List (Location × ByteArray)}

/-- No file lies above anything else. -/
def FilesAreLeaves (t : FileTree) : Prop := ∀ l contents q,
  t.get? l = some (.file contents) → t.get? q ≠ none → l ∉ q.ancestors

/-- The tree with several files, put there in turn. -/
def withFiles (t : FileTree) (puts : List (Location × ByteArray)) : FileTree :=
  puts.foldl (fun t e => t.withFile e.1 e.2) t

theorem WellFormed.withFiles (h : t.WellFormed) (hputs : ∀ e ∈ puts, Location.IsResolved e.1) :
    (t.withFiles puts).WellFormed := by
  induction puts generalizing t with
  | nil => exact h
  | cons e puts ih =>
    exact ih (h.withFile (hputs e List.mem_cons_self) e.2) fun f hf =>
      hputs f (List.mem_cons_of_mem e hf)

/-- Where no file is put, neither there nor below, all is as it was. -/
theorem get?_withFiles_of_untouched (h : ∀ e ∈ puts, q ≠ e.1 ∧ q ∉ e.1.ancestors) :
    (t.withFiles puts).get? q = t.get? q := by
  induction puts generalizing t with
  | nil => rfl
  | cons e puts ih =>
    obtain ⟨hne, habove⟩ := h e List.mem_cons_self
    have hstep : (t.withFile e.1 e.2).get? q = t.get? q := by
      rw [get?_withFile, if_neg hne, if_neg habove]
    exact (ih fun f hf => h f (List.mem_cons_of_mem e hf)).trans hstep

/-- Files that are put apart from each other are all there. -/
theorem get?_withFiles_of_mem
    (hapart : puts.Pairwise fun e f => e.1 ≠ f.1 ∧ e.1 ∉ f.1.ancestors)
    (h : (l, contents) ∈ puts) : (t.withFiles puts).get? l = some (.file contents) := by
  induction puts generalizing t with
  | nil => cases h
  | cons e puts ih =>
    obtain ⟨hfirst, hrest⟩ := List.pairwise_cons.1 hapart
    rcases List.mem_cons.1 h with rfl | h
    · refine (get?_withFiles_of_untouched hfirst).trans ?_
      rw [get?_withFile, if_pos rfl]
    · exact ih hrest h

/-- A directory stays one where no file is put in its place. -/
theorem get?_withFiles_of_directory (h : t.get? q = some .directory)
    (hne : ∀ e ∈ puts, q ≠ e.1) : (t.withFiles puts).get? q = some .directory := by
  induction puts generalizing t with
  | nil => exact h
  | cons e puts ih =>
    refine ih ?_ fun f hf => hne f (List.mem_cons_of_mem e hf)
    rw [get?_withFile, if_neg (hne e List.mem_cons_self), h, ite_self]

/-- A file is one of those that were put, or was there before. -/
theorem get?_eq_file_of_withFiles (h : (t.withFiles puts).get? q = some (.file contents)) :
    (∃ e ∈ puts, e.1 = q) ∨ t.get? q = some (.file contents) := by
  induction puts generalizing t with
  | nil => exact .inr h
  | cons e puts ih =>
    rcases ih h with ⟨f, hf, heq⟩ | hstep
    · exact .inl ⟨f, List.mem_cons_of_mem e hf, heq⟩
    · rw [get?_withFile] at hstep
      split at hstep
      · rename_i heq
        exact .inl ⟨e, List.mem_cons_self, heq.symm⟩
      · split at hstep
        · cases hstep
        · exact .inr hstep

/-- What stands there is a file that was put or lies above one, or stood there
before. -/
theorem get?_withFiles_ne_none (h : (t.withFiles puts).get? q ≠ none) :
    (∃ e ∈ puts, q = e.1 ∨ q ∈ e.1.ancestors) ∨ t.get? q ≠ none := by
  by_cases htouched : ∃ e ∈ puts, q = e.1 ∨ q ∈ e.1.ancestors
  · exact .inl htouched
  · rw [get?_withFiles_of_untouched fun e he =>
      not_or.1 fun htouch => htouched ⟨e, he, htouch⟩] at h
    exact .inr h

/-- In a tree of files none of which lies above another, files are leaves. -/
theorem filesAreLeaves_withFiles (h : ∀ e ∈ puts, ∀ f ∈ puts, e.1 ∉ f.1.ancestors) :
    (empty.withFiles puts).FilesAreLeaves := by
  have hnone : ∀ q, empty.get? q = none := fun q => Std.ExtTreeMap.getElem?_empty
  intro l contents q hfile hq habove
  -- the file was put, and what lies below it was put or lies above a file that was
  rcases get?_eq_file_of_withFiles hfile with ⟨e, he, rfl⟩ | hfile
  · rcases get?_withFiles_ne_none hq with ⟨f, hf, rfl | hqf⟩ | hq
    · exact h e he f hf habove
    · exact h e he f hf (Location.mem_ancestors_trans habove hqf)
    · exact hq (hnone q)
  · rw [hnone] at hfile
    cases hfile

/-! ## Listing files -/

/-- The files of a tree are what stands in it as a file. -/
theorem mem_files_iff : (l, contents) ∈ t.files ↔ t.get? l = some (.file contents) := by
  rw [files, List.mem_filterMap, get?, ← Std.ExtTreeMap.mem_toList_iff_getElem?_eq_some]
  constructor
  · rintro ⟨⟨k, entry⟩, hmem, hsome⟩
    cases entry with
    | directory => cases hsome
    | file c =>
      obtain ⟨rfl, rfl⟩ := Prod.mk.inj (Option.some.inj hsome)
      exact hmem
  · exact fun hmem => ⟨(l, .file contents), hmem, rfl⟩

/-- Files are listed in the order of their components. -/
theorem files_pairwise (t : FileTree) :
    t.files.Pairwise fun e f => compare e.1 f.1 = .lt := by
  refine List.pairwise_filterMap.2 ?_
  refine Std.ExtTreeMap.ordered_keys_toList.imp fun {e f} hlt a ha b hb => ?_
  obtain ⟨c, -, rfl⟩ := Option.map_eq_some_iff.1 ha
  obtain ⟨d, -, rfl⟩ := Option.map_eq_some_iff.1 hb
  exact hlt

/-- A list of paths names the files of a tree at and below a location, by their
components in order, and so each file once. -/
structure Lists (t : FileTree) (top : Location) (paths : List FilePath) : Prop where
  ordered : (paths.map FilePath.components).Pairwise fun a b => compare a b = .lt
  mem_iff : ∀ l, l ∈ paths.map FilePath.components ↔
    top <+: l ∧ ∃ contents, t.get? l = some (.file contents)

/-- The files at and below a location, as a walk finds them. -/
def filesWithin (t : FileTree) (top : Location) : List (Location × ByteArray) :=
  t.files.filter fun e => Location.isWithin e.1 top

theorem mem_filesWithin_iff {top : Location} : (l, contents) ∈ t.filesWithin top ↔
    top <+: l ∧ t.get? l = some (.file contents) := by
  rw [filesWithin, List.mem_filter, mem_files_iff, Location.isWithin, List.isPrefixOf_iff_prefix,
    and_comm]

theorem walk_of_directory {p : FilePath} (h : t.get? (t.locate p) = some .directory) :
    t.walk p = .ok ((t.filesWithin (t.locate p)).map fun e => .ofComponents e.1) := by
  rw [walk, h]
  rfl

theorem walk_of_not_directory {p : FilePath} (h : t.get? (t.locate p) ≠ some .directory) :
    t.walk p = .error .noDirectory := by
  unfold walk
  split
  · exact absurd ‹_› h
  · rfl

/-- The components of the paths that a walk finds are the locations of the
files. -/
theorem map_components_filesWithin (ht : t.WellFormed) (top : Location) :
    ((t.filesWithin top).map fun e => FilePath.ofComponents e.1).map FilePath.components =
      (t.filesWithin top).map Prod.fst := by
  rw [List.map_map]
  refine List.map_congr_left fun e he => FilePath.components_ofComponents (ht.entries ?_)
  rw [(mem_filesWithin_iff.1 he).2]
  nofun

/-- **A walk lists the files at and below its location.** -/
theorem lists_of_walk {p : FilePath} {paths : List FilePath} (ht : t.WellFormed)
    (h : t.walk p = .ok paths) : t.Lists (t.locate p) paths := by
  by_cases hdir : t.get? (t.locate p) = some .directory
  · rw [walk_of_directory hdir] at h
    obtain rfl := Except.ok.inj h
    constructor
    · rw [map_components_filesWithin ht]
      exact ((files_pairwise t).filter _).map Prod.fst fun _ _ hlt => hlt
    · intro l
      rw [map_components_filesWithin ht, List.mem_map]
      constructor
      · rintro ⟨⟨k, contents⟩, hmem, rfl⟩
        obtain ⟨hwithin, hfile⟩ := mem_filesWithin_iff.1 hmem
        exact ⟨hwithin, contents, hfile⟩
      · rintro ⟨hwithin, contents, hfile⟩
        exact ⟨(l, contents), mem_filesWithin_iff.2 ⟨hwithin, hfile⟩, rfl⟩
  · rw [walk_of_not_directory hdir] at h
    cases h

end FileTree

end SplitBuild
