import SplitBuild.FilePath
import SplitBuild.Proofs.Path.Relative
/-!
# Components and the paths they make

The steps of a path are read off its segments, and a path behind another
one adds its steps to those of the other (`steps_join`). A location is
resolved if it holds names only, below the root or below nothing. These
are the locations that paths lead to (`isResolved_resolve`), and **a
resolved location is read off the path that it makes**
(`components_ofComponents`), whose text is known (`ofComponents_named`).
-/

namespace SplitBuild

/-! ## Components -/

namespace Component

variable {seg : List Char} {c : Component}

/-- The step to what is named by a segment. -/
def named (seg : List Char) : Component := .normal (String.ofList seg)

@[simp] theorem text_named (seg : List Char) : (named seg).text = String.ofList seg := rfl

theorem named_injective : Function.Injective named := fun seg other h => by
  rw [← String.toList_ofList (l := seg), ← String.toList_ofList (l := other)]
  exact congrArg String.toList (Component.normal.inj h)

/-- A component that is a name, as a segment of a path can be one. -/
def IsName (c : Component) : Prop := ∃ seg, c = named seg ∧ Path.IsName seg ∧ '/' ∉ seg

theorem ofSegment?_of_isName (h : Path.IsName seg) : ofSegment? seg = some (named seg) := by
  rw [ofSegment?, if_neg (not_or.2 ⟨h.ne_nil, h.ne_here⟩), if_neg h.ne_back]
  rfl

/-- What a segment can be: nothing that counts, a step back, or a name. -/
theorem ofSegment?_cases (seg : List Char) :
    (seg = [] ∨ seg = ['.']) ∧ ofSegment? seg = none ∨
      seg = ['.', '.'] ∧ ofSegment? seg = some .parent ∨
      Path.IsName seg ∧ ofSegment? seg = some (named seg) := by
  by_cases hskip : seg = [] ∨ seg = ['.']
  · exact .inl ⟨hskip, if_pos hskip⟩
  · by_cases hback : seg = ['.', '.']
    · subst hback
      exact .inr (.inl ⟨rfl, by decide⟩)
    · have hname : Path.IsName seg :=
        ⟨fun h => hskip (.inl h), fun h => hskip (.inr h), hback⟩
      exact .inr (.inr ⟨hname, ofSegment?_of_isName hname⟩)

theorem isName_named_iff : IsName (named seg) ↔ Path.IsName seg ∧ '/' ∉ seg := by
  constructor
  · rintro ⟨other, hother, hname⟩
    exact named_injective hother ▸ hname
  · exact fun hname => ⟨seg, rfl, hname⟩

theorem exists_map_named {cs : List Component} (h : ∀ c ∈ cs, IsName c) :
    ∃ segs : List (List Char), cs = segs.map named ∧ ∀ seg ∈ segs, Path.IsName seg ∧ '/' ∉ seg := by
  induction cs with
  | nil => exact ⟨[], rfl, nofun⟩
  | cons c cs ih =>
    obtain ⟨seg, hseg, hname⟩ := h c List.mem_cons_self
    obtain ⟨segs, hsegs, hnames⟩ := ih fun d hd => h d (List.mem_cons_of_mem c hd)
    refine ⟨seg :: segs, by rw [List.map_cons, hseg, hsegs], ?_⟩
    intro other hother
    rcases List.mem_cons.1 hother with rfl | hother
    · exact hname
    · exact hnames other hother

/-- Names are the components of the segments that they are. -/
theorem filterMap_ofSegment? {segs : List (List Char)} (h : ∀ seg ∈ segs, Path.IsName seg) :
    segs.filterMap ofSegment? = segs.map named := by
  induction segs with
  | nil => rfl
  | cons seg segs ih =>
    rw [List.filterMap_cons_some (ofSegment?_of_isName (h seg List.mem_cons_self)),
      ih fun other hother => h other (List.mem_cons_of_mem seg hother), List.map_cons]

end Component

open Component

/-! ## Steps of a path -/

namespace FilePath

variable {p base : FilePath}

/-- The components of a path behind its front. -/
def steps (p : FilePath) : List Component := (Path.segments p.text).filterMap ofSegment?

theorem components_of_isAbsolute (h : p.isAbsolute) : p.components = .root :: p.steps := by
  rw [components, if_pos h, steps]

theorem components_of_not_isAbsolute (h : ¬ p.isAbsolute) :
    p.components = p.steps ∨ p.components = .current :: p.steps := by
  rw [components, if_neg h, steps]
  by_cases hdot : (Path.segments p.text).head? = some ['.']
  · exact .inr (if_pos hdot)
  · exact .inl (if_neg hdot)

/-- A step of a path is a step back or a name. -/
theorem eq_parent_or_isName_of_mem_steps {c : Component} (h : c ∈ p.steps) :
    c = .parent ∨ c.IsName := by
  obtain ⟨seg, hseg, hc⟩ := List.mem_filterMap.1 h
  rcases ofSegment?_cases seg with ⟨-, hnone⟩ | ⟨-, hback⟩ | ⟨hname, hsome⟩
  · rw [hnone] at hc
    cases hc
  · rw [hback] at hc
    exact .inl (Option.some.inj hc).symm
  · rw [hsome] at hc
    exact .inr ⟨seg, (Option.some.inj hc).symm, hname, Path.slash_not_mem_of_mem_segments hseg⟩

/-- A path that begins with the root starts at the root. -/
theorem isAbsolute_of_head? (h : p.components.head? = some .root) : p.isAbsolute := by
  refine Decidable.byContradiction fun habs => ?_
  have hmem : Component.root ∈ p.steps := by
    rcases components_of_not_isAbsolute habs with hcs | hcs
    · exact List.mem_of_mem_head? (hcs ▸ h)
    · rw [hcs] at h
      cases h
  rcases eq_parent_or_isName_of_mem_steps hmem with hparent | ⟨seg, hname, -⟩
  · cases hparent
  · cases hname

/-! ## One path behind another -/

/-- A path is empty or ends in a slash, so that another one goes right behind
it. -/
def IsOpen (p : FilePath) : Prop := p.text.isEmpty ∨ p.text.toList.getLast? = some '/'

theorem join_of_isOpen (hbase : base.IsOpen) (hp : ¬ p.isAbsolute) :
    base.join p = ⟨base.text ++ p.text⟩ := by
  rw [join, if_neg hp]
  exact if_pos hbase

theorem join_of_not_isOpen (hbase : ¬ base.IsOpen) (hp : ¬ p.isAbsolute) :
    base.join p = ⟨base.text ++ "/" ++ p.text⟩ := by
  rw [join, if_neg hp]
  exact if_neg hbase

theorem isAbsolute_append (h : p.isAbsolute) (s : String) : isAbsolute ⟨p.text ++ s⟩ := by
  rw [isAbsolute, decide_eq_true_eq, String.toList_append, List.head?_append,
    of_decide_eq_true h, Option.some_or]

theorem isAbsolute_join (hbase : base.isAbsolute) (hp : ¬ p.isAbsolute) :
    (base.join p).isAbsolute := by
  by_cases hopen : base.IsOpen
  · rw [join_of_isOpen hopen hp]
    exact isAbsolute_append hbase p.text
  · rw [join_of_not_isOpen hopen hp, String.append_assoc]
    exact isAbsolute_append hbase ("/" ++ p.text)

/-- **A path behind another one adds its steps to those of the other.** -/
theorem steps_join (hbase : base.text ≠ "") (hp : ¬ p.isAbsolute) :
    (base.join p).steps = base.steps ++ p.steps := by
  by_cases hopen : base.IsOpen
  · -- a slash at the end of the base ends an empty segment, which does not count
    obtain ⟨front, hfront⟩ : ∃ front, base.text.toList = front ++ ['/'] := by
      rcases hopen with hempty | hlast
      · exact absurd (String.isEmpty_iff.1 hempty) hbase
      · exact List.getLast?_eq_some_iff.1 hlast
    have hcut : base.text = String.ofList front ++ "/" := by
      rw [← String.ofList_toList (s := base.text), hfront, String.ofList_append]
    have htrail : Path.segments (String.ofList front ++ "/") =
        Path.segments (String.ofList front) ++ [[]] := by
      rw [← String.append_empty (s := String.ofList front ++ "/"), Path.segments_append_slash]
      rfl
    have hskip : ofSegment? [] = none := by decide
    simp only [join_of_isOpen hopen hp, steps, hcut, htrail, Path.segments_append_slash,
      List.filterMap_append, List.filterMap_cons, hskip, List.filterMap_nil, List.append_nil]
  · rw [join_of_not_isOpen hopen hp, steps, Path.segments_append_slash, List.filterMap_append,
      steps, steps]

end FilePath

/-! ## Resolved locations -/

namespace Location

variable {l top : Location}

/-- The components of a location behind the root, if it is below it. -/
def inner : Location → List Component
  | .root :: rest => rest
  | l => l

/-- A location holds names only, below the root or below nothing. -/
def IsResolved (l : Location) : Prop := ∀ c ∈ l.inner, c.IsName

theorem isResolved_root : IsResolved [.root] := nofun

/-- A resolved location is the root and names behind it, or names alone. -/
theorem IsResolved.exists_names (h : l.IsResolved) : ∃ segs : List (List Char),
    (∀ seg ∈ segs, Path.IsName seg ∧ '/' ∉ seg) ∧
      (l = .root :: segs.map named ∨ l = segs.map named) := by
  obtain ⟨segs, hsegs, hnames⟩ := exists_map_named h
  refine ⟨segs, hnames, ?_⟩
  unfold inner at hsegs
  split at hsegs
  · exact .inl (by rw [hsegs])
  · exact .inr hsegs

theorem mem_inner_of_mem {c : Component} (h : c ∈ l) : c = .root ∨ c ∈ l.inner := by
  unfold inner
  split
  · exact List.mem_cons.1 h
  · exact .inr h

/-- The components of a resolved location are the root or names. -/
theorem IsResolved.eq_root_or_isName {c : Component} (h : l.IsResolved) (hc : c ∈ l) :
    c = .root ∨ c.IsName := (mem_inner_of_mem hc).imp_right (h c)

theorem IsResolved.parent_not_mem (h : l.IsResolved) : .parent ∉ l := by
  intro hparent
  rcases h.eq_root_or_isName hparent with hroot | ⟨seg, hname, -⟩
  · cases hroot
  · cases hname

/-- A location above a resolved one is resolved. -/
theorem IsResolved.initial (h : l.IsResolved) (htop : top <+: l) : top.IsResolved := by
  intro c hc
  cases top with
  | nil => cases hc
  | cons d top =>
    obtain ⟨rest, rfl⟩ := htop
    refine h c ?_
    cases d with
    | root => exact List.mem_append_left rest hc
    | current => exact List.mem_append_left rest hc
    | parent => exact List.mem_append_left rest hc
    | normal name => exact List.mem_append_left rest hc

/-- A name leads from a resolved location to a resolved one. -/
theorem IsResolved.append {c : Component} (h : l.IsResolved) (hc : c.IsName) :
    IsResolved (l ++ [c]) := by
  intro d hd
  have hmem : d ∈ l.inner ++ [c] := by
    cases l with
    | nil =>
      obtain ⟨seg, rfl, -⟩ := hc
      exact hd
    | cons e l => cases e <;> exact hd
  rcases List.mem_append.1 hmem with hd | hd
  · exact h d hd
  · obtain rfl := List.mem_singleton.1 hd
    exact hc

/-- So does every step of a path. -/
theorem IsResolved.foldl_enter {cs : List Component} (h : l.IsResolved)
    (hcs : ∀ c ∈ cs, c = .current ∨ c = .parent ∨ c.IsName) :
    IsResolved (cs.foldl enter l) := by
  induction cs generalizing l with
  | nil => exact h
  | cons c cs ih =>
    refine ih ?_ fun d hd => hcs d (List.mem_cons_of_mem c hd)
    rcases hcs c List.mem_cons_self with rfl | rfl | ⟨seg, rfl, hname⟩
    · exact h
    · exact h.initial (List.dropLast_prefix l)
    · exact h.append ⟨seg, rfl, hname⟩

end Location

namespace FilePath

variable {p : FilePath} {l cwd : Location} {segs : List (List Char)}

/-- From the root the steps of an absolute path are taken, wherever it is
seen from. -/
theorem resolve_of_isAbsolute (h : p.isAbsolute) (cwd : Location) :
    p.resolve cwd = p.steps.foldl Location.enter [.root] := by
  rw [resolve, components_of_isAbsolute h, if_pos h, List.foldl_cons]
  rfl

theorem resolve_of_not_isAbsolute (h : ¬ p.isAbsolute) (cwd : Location) :
    p.resolve cwd = p.steps.foldl Location.enter cwd := by
  rw [resolve, if_neg h]
  rcases components_of_not_isAbsolute h with hcs | hcs
  · rw [hcs]
  · rw [hcs, List.foldl_cons]
    rfl

/-- **A path leads to a resolved location.** -/
theorem isResolved_resolve (h : cwd.IsResolved) : (p.resolve cwd).IsResolved := by
  have hsteps : ∀ c ∈ p.steps, c = .current ∨ c = .parent ∨ c.IsName := fun c hc =>
    .inr (eq_parent_or_isName_of_mem_steps hc)
  by_cases habs : p.isAbsolute
  · rw [resolve_of_isAbsolute habs]
    exact Location.isResolved_root.foldl_enter hsteps
  · rw [resolve_of_not_isAbsolute habs]
    exact h.foldl_enter hsteps

/-! ## Paths of locations -/

/-- Segments are put together with a slash in front of each but the first. -/
theorem ofSegments_cons (seg : List Char) (segs : List (List Char)) :
    Path.ofSegments (seg :: segs) =
      String.ofList seg ++ String.ofList (segs.flatMap ('/' :: ·)) := by
  rw [← String.ofList_append, Path.ofSegments]
  congr 1
  induction segs generalizing seg with
  | nil => rw [List.intercalate_singleton, List.flatMap_nil, List.append_nil]
  | cons next segs ih =>
    rw [List.intercalate_cons_cons, ih, List.flatMap_cons, List.append_assoc]
    rfl

theorem not_isAbsolute_named {seg : List Char} (hslash : '/' ∉ seg) :
    ¬ (FilePath.mk (named seg).text).isAbsolute := by
  rw [isAbsolute, decide_eq_true_eq, text_named, String.toList_ofList]
  exact fun h => hslash (List.mem_of_mem_head? h)

/-- A path is not open behind a name. -/
theorem not_isOpen_append {seg : List Char} (hne : seg ≠ []) (hslash : '/' ∉ seg) (s : String) :
    ¬ IsOpen ⟨s ++ String.ofList seg⟩ := by
  rintro (hempty | hlast)
  · have hnil := congrArg String.toList (String.isEmpty_iff.1 hempty)
    rw [String.toList_append, String.toList_ofList] at hnil
    exact hne (List.append_eq_nil_iff.1 hnil).2
  · rw [String.toList_append, String.toList_ofList, List.getLast?_append,
      List.getLast?_eq_some_getLast hne, Option.some_or] at hlast
    exact hslash (Option.some.inj hlast ▸ List.getLast_mem hne)

theorem foldl_join_named (hp : ¬ p.IsOpen) (h : ∀ seg ∈ segs, Path.IsName seg ∧ '/' ∉ seg) :
    (segs.map named).foldl (fun q step => q.join ⟨step.text⟩) p =
      ⟨p.text ++ String.ofList (segs.flatMap ('/' :: ·))⟩ := by
  induction segs generalizing p with
  | nil => rw [List.flatMap_nil, String.ofList_nil, String.append_empty]; rfl
  | cons seg segs ih =>
    obtain ⟨hname, hslash⟩ := h seg List.mem_cons_self
    have hnext : ¬ IsOpen ⟨p.text ++ "/" ++ String.ofList seg⟩ :=
      not_isOpen_append hname.ne_nil hslash (p.text ++ "/")
    have hcons : String.ofList ('/' :: seg) = "/" ++ String.ofList seg := by
      rw [← List.singleton_append, String.ofList_append]
    have hrest := ih hnext fun other hother => h other (List.mem_cons_of_mem seg hother)
    rw [List.map_cons, List.foldl_cons, join_of_not_isOpen hp (not_isAbsolute_named hslash),
      text_named, hrest, List.flatMap_cons, String.ofList_append, hcons]
    simp only [String.append_assoc]

/-- **The text of the path of some names**, behind the root or behind
nothing. -/
theorem foldl_join_named_of_isOpen (hp : p.IsOpen)
    (h : ∀ seg ∈ segs, Path.IsName seg ∧ '/' ∉ seg) :
    (segs.map named).foldl (fun q step => q.join ⟨step.text⟩) p =
      ⟨p.text ++ Path.ofSegments segs⟩ := by
  cases segs with
  | nil => exact congrArg mk String.append_empty.symm
  | cons seg segs =>
    obtain ⟨hname, hslash⟩ := h seg List.mem_cons_self
    have hrest := foldl_join_named (not_isOpen_append hname.ne_nil hslash p.text)
      fun other hother => h other (List.mem_cons_of_mem seg hother)
    rw [List.map_cons, List.foldl_cons, join_of_isOpen hp (not_isAbsolute_named hslash),
      text_named, hrest, ofSegments_cons, ← String.append_assoc]

theorem ofComponents_named (h : ∀ seg ∈ segs, Path.IsName seg ∧ '/' ∉ seg) :
    ofComponents (segs.map named) = ⟨Path.ofSegments segs⟩ := by
  rw [ofComponents, foldl_join_named_of_isOpen (.inl (by decide)) h, String.empty_append]

theorem ofComponents_root_named (h : ∀ seg ∈ segs, Path.IsName seg ∧ '/' ∉ seg) :
    ofComponents (.root :: segs.map named) = ⟨"/" ++ Path.ofSegments segs⟩ := by
  have hroot : (FilePath.mk "").join ⟨Component.root.text⟩ = ⟨"/"⟩ := by decide
  rw [ofComponents, List.foldl_cons, hroot, foldl_join_named_of_isOpen (.inr (by decide)) h]

/-- The names of a path are read off its text. -/
theorem steps_ofSegments (h : ∀ seg ∈ segs, Path.IsName seg ∧ '/' ∉ seg) :
    steps ⟨Path.ofSegments segs⟩ = segs.map named := by
  cases segs with
  | nil => rfl
  | cons seg segs =>
    rw [steps, Path.segments_ofSegments (List.cons_ne_nil seg segs) fun s hs => (h s hs).2,
      filterMap_ofSegment? fun s hs => (h s hs).1]

/-- The path of some names does not start at the root. -/
theorem not_isAbsolute_ofSegments (h : ∀ seg ∈ segs, Path.IsName seg ∧ '/' ∉ seg) :
    ¬ isAbsolute ⟨Path.ofSegments segs⟩ := by
  cases segs with
  | nil => decide
  | cons seg segs =>
    obtain ⟨hname, hslash⟩ := h seg List.mem_cons_self
    rw [isAbsolute, decide_eq_true_eq, ofSegments_cons, String.toList_append, String.toList_ofList,
      List.head?_append, List.head?_eq_some_head hname.ne_nil, Option.some_or]
    exact fun hhead => hslash (Option.some.inj hhead ▸ List.head_mem hname.ne_nil)

theorem isAbsolute_slash (s : String) : isAbsolute ⟨"/" ++ s⟩ :=
  isAbsolute_append (p := ⟨"/"⟩) (by decide) s

/-- **A resolved location is read off the path that it makes.** -/
theorem components_ofComponents (h : l.IsResolved) : (ofComponents l).components = l := by
  obtain ⟨segs, hsegs, rfl | rfl⟩ := h.exists_names
  · rw [ofComponents_root_named hsegs, components_of_isAbsolute (isAbsolute_slash _)]
    have hroot : steps ⟨"/" ++ Path.ofSegments segs⟩ = steps ⟨Path.ofSegments segs⟩ := by
      rw [steps, ← String.empty_append (s := "/"), Path.segments_append_slash]
      rfl
    rw [hroot, steps_ofSegments hsegs]
  · rw [ofComponents_named hsegs, components, if_neg (not_isAbsolute_ofSegments hsegs)]
    have hdot : (Path.segments (Path.ofSegments segs)).head? ≠ some ['.'] := by
      cases segs with
      | nil => decide
      | cons seg segs =>
        rw [Path.segments_ofSegments (List.cons_ne_nil seg segs) fun s hs => (hsegs s hs).2]
        exact fun hhead => (hsegs seg List.mem_cons_self).1.ne_here (Option.some.inj hhead)
    exact (if_neg hdot).trans (steps_ofSegments hsegs)

end FilePath

end SplitBuild
