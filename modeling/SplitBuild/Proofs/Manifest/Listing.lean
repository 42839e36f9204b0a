import SplitBuild.Manifest.Root
import SplitBuild.Proofs.Classification
import Mathlib.Data.List.Nodup
/-!
# The subpackages that a patch lists

A patch goes through two lists of subpackages and adds the entry of each
one that is wanted and not listed yet (`add`). What is added in the end is,
of each root that was not listed at first, the first subpackage with it
(`foldl_add`), so that the patched list is known in closed form
(`listed_eq`).

The roots that are added are distinct and none of them was listed
(`mem_addedRoots_iff`, `nodup_addedRoots`). In a reading of roots that
takes some of them for the same one, **none is listed a second time
exactly if the reading tells them apart** (`listsOnce_iff`).
-/

namespace SplitBuild

open Json

namespace RootManifest

variable {ctx : Context} {names : List String} {entry : Subpackage → Value}
variable {wanted : Subpackage → Bool} {before : List Value} {s : Subpackage}
variable {subs : List Subpackage} {listed : List String} {root : String} {read : String → String}

/-! ## Adding what is not listed -/

/-- A list with the entry of a subpackage, if it is wanted and its root is
not listed. -/
def add (entry : Subpackage → Value) (wanted : Subpackage → Bool) (entries : List Value)
    (s : Subpackage) : List Value :=
  if wanted s ∧ s.root ∉ listedRoots entries then entries ++ [entry s] else entries

/-- The subpackages whose root is not listed, of each root the first. -/
def firstNew (listed : List String) (subs : List Subpackage) : List Subpackage :=
  (subs.filter fun s => s.root ∉ listed).eraseDupsBy fun s t => s.root == t.root

theorem firstNew_cons_of_mem (h : s.root ∈ listed) :
    firstNew listed (s :: subs) = firstNew listed subs := by
  rw [firstNew, List.filter_cons_of_neg (by simpa using h), firstNew]

/-- Once a subpackage is taken its root counts as listed. -/
theorem firstNew_cons_of_not_mem (h : s.root ∉ listed) :
    firstNew listed (s :: subs) = s :: firstNew (listed ++ [s.root]) subs := by
  have hfilter : (subs.filter fun t => t.root ∉ listed).filter
      (fun t => (t.root == s.root) = false) = subs.filter fun t => t.root ∉ listed ++ [s.root] := by
    rw [List.filter_filter]
    refine List.filter_congr fun t _ => ?_
    simp [and_comm]
  rw [firstNew, List.filter_cons_of_pos (by simpa using h), List.eraseDupsBy_cons, hfilter, firstNew]

theorem mem_of_mem_firstNew (h : s ∈ firstNew listed subs) : s ∈ subs := by
  induction subs generalizing listed with
  | nil => simp [firstNew] at h
  | cons t subs ih =>
    by_cases ht : t.root ∈ listed
    · rw [firstNew_cons_of_mem ht] at h
      exact List.mem_cons_of_mem _ (ih h)
    · rw [firstNew_cons_of_not_mem ht] at h
      rcases List.mem_cons.1 h with rfl | h
      · exact List.mem_cons_self
      · exact List.mem_cons_of_mem _ (ih h)

theorem mem_roots_firstNew_iff : root ∈ (firstNew listed subs).map (·.root) ↔
    root ∈ subs.map (·.root) ∧ root ∉ listed := by
  induction subs generalizing listed with
  | nil => simp [firstNew]
  | cons s subs ih =>
    by_cases h : s.root ∈ listed
    · rw [firstNew_cons_of_mem h, ih, List.map_cons, List.mem_cons]
      refine and_congr_left fun hroot => ?_
      exact ⟨.inr, fun hmem => hmem.resolve_left fun heq => hroot (heq ▸ h)⟩
    · rw [firstNew_cons_of_not_mem h, List.map_cons, List.mem_cons, ih, List.map_cons,
        List.mem_cons, List.mem_append, List.mem_singleton]
      by_cases heq : root = s.root
      · subst heq
        simp [h]
      · simp [heq]

/-- Nothing is new where all roots are listed. -/
theorem firstNew_eq_nil (h : ∀ s ∈ subs, s.root ∈ listed) : firstNew listed subs = [] := by
  have hfilter : (subs.filter fun s => s.root ∉ listed) = [] :=
    List.filter_eq_nil_iff.2 fun s hs => by simpa using h s hs
  rw [firstNew, hfilter, List.eraseDupsBy_nil]

/-- Of each root one subpackage is taken. -/
theorem nodup_roots_firstNew : ((firstNew listed subs).map (·.root)).Nodup := by
  induction subs generalizing listed with
  | nil => exact List.nodup_nil
  | cons s subs ih =>
    by_cases h : s.root ∈ listed
    · rw [firstNew_cons_of_mem h]
      exact ih
    · rw [firstNew_cons_of_not_mem h, List.map_cons, List.nodup_cons]
      refine ⟨fun hmem => ?_, ih⟩
      exact (mem_roots_firstNew_iff.1 hmem).2 (List.mem_append_right _ List.mem_cons_self)

theorem listedRoots_append (entries more : List Value) :
    listedRoots (entries ++ more) = listedRoots entries ++ listedRoots more := List.filterMap_append

theorem listedRoots_map (hroot : ∀ s, root? (entry s) = some s.root) :
    listedRoots (subs.map entry) = subs.map (·.root) := by
  have hcomp : root? ∘ entry = some ∘ (·.root) := funext hroot
  rw [listedRoots, List.filterMap_map, hcomp, List.filterMap_eq_map]

/-- **What is added in the end**: of each root that is wanted and was not
listed at first, the first subpackage with it. -/
theorem foldl_add (hroot : ∀ s, root? (entry s) = some s.root) :
    subs.foldl (add entry wanted) before =
      before ++ (firstNew (listedRoots before) (subs.filter wanted)).map entry := by
  -- along the subpackages; each one that is added is listed from there on
  induction subs generalizing before with
  | nil => simp [firstNew]
  | cons s subs ih =>
    rw [List.foldl_cons, ih]
    by_cases hwanted : wanted s
    · rw [List.filter_cons_of_pos hwanted]
      by_cases hlisted : s.root ∈ listedRoots before
      · rw [add, if_neg (fun h => h.2 hlisted), firstNew_cons_of_mem hlisted]
      · have hroots : listedRoots ([s].map entry) = [s].map (·.root) := listedRoots_map hroot
        rw [List.map_singleton, List.map_singleton] at hroots
        rw [add, if_pos ⟨hwanted, hlisted⟩, firstNew_cons_of_not_mem hlisted, listedRoots_append,
          hroots, List.map_cons, List.append_assoc, List.singleton_append]
    · rw [List.filter_cons_of_neg hwanted, add, if_neg (fun h => hwanted h.1)]

/-! ## The list of a build -/

/-- A declared subpackage is added if it has no pages and one of the assets
lies under it. -/
def isDiscovered (names : List String) (s : Subpackage) : Bool :=
  s.pages.isEmpty && names.any (Path.isUnder · s.root)

/-- The subpackages of the options that are added. -/
def appended (ctx : Context) (before : List Value) : List Subpackage :=
  firstNew (listedRoots before) (ctx.options.appendSubPackages.filter (·.root ≠ ""))

/-- The declared subpackages that are added behind them. -/
def discovered (ctx : Context) (names : List String) (before : List Value) : List Subpackage :=
  firstNew (listedRoots before ++ (appended ctx before).map (·.root))
    (ctx.subpackages.members.filter (isDiscovered names))

/-- The entries that are added. -/
def added (ctx : Context) (names : List String) (before : List Value) : List Value :=
  (appended ctx before).map Subpackage.value ++ (discovered ctx names before).map entryWithoutPages

/-- The roots of the subpackages that a build has to list. -/
def offeredRoots (ctx : Context) (names : List String) : List String :=
  (ctx.options.appendSubPackages.filter (·.root ≠ "")).map (·.root) ++
    (ctx.subpackages.members.filter (isDiscovered names)).map (·.root)

theorem root?_value (s : Subpackage) : root? s.value = some s.root := rfl

theorem root?_entryWithoutPages (s : Subpackage) : root? (entryWithoutPages s) = some s.root := rfl

theorem append_eq_add : append = add Subpackage.value (·.root ≠ "") := by
  funext entries s
  rw [append, add]
  by_cases h : s.root = "" ∨ s.root ∈ listedRoots entries
  · rw [if_pos h, if_neg (by simpa [not_or, or_iff_not_imp_left] using h)]
  · rw [if_neg h, if_pos (by simpa [not_or] using h)]

theorem discover_eq_add : discover names = add entryWithoutPages (isDiscovered names) := by
  funext entries s
  rw [discover, add]
  refine if_congr ?_ rfl rfl
  rw [isDiscovered, Bool.and_eq_true]
  tauto

/-- **The list of a build**: what was listed, then what is added. -/
theorem listed_eq : RootManifest.listed ctx names before = before ++ added ctx names before := by
  have happended : ctx.options.appendSubPackages.foldl append before =
      before ++ (appended ctx before).map Subpackage.value := by
    rw [append_eq_add, foldl_add root?_value, appended]
  have hroots : listedRoots (before ++ (appended ctx before).map Subpackage.value) =
      listedRoots before ++ (appended ctx before).map (·.root) := by
    rw [listedRoots_append, listedRoots_map root?_value]
  rw [RootManifest.listed, happended, discover_eq_add, foldl_add root?_entryWithoutPages, hroots,
    List.append_assoc, added, discovered]

/-! ## What is added has new roots -/

/-- The roots that are added. -/
def addedRoots (ctx : Context) (names : List String) (before : List Value) : List String :=
  (appended ctx before).map (·.root) ++ (discovered ctx names before).map (·.root)

theorem map_root?_added :
    (added ctx names before).map root? = (addedRoots ctx names before).map some := by
  simp only [added, addedRoots, List.map_append, List.map_map]
  rfl

theorem mem_addedRoots_iff : root ∈ addedRoots ctx names before ↔
    root ∈ offeredRoots ctx names ∧ root ∉ listedRoots before := by
  rw [addedRoots, offeredRoots, List.mem_append, List.mem_append, appended, discovered, appended,
    mem_roots_firstNew_iff, mem_roots_firstNew_iff, List.mem_append, mem_roots_firstNew_iff]
  tauto

/-- The roots that a build has to list are listed in the end. -/
theorem mem_listedRoots_listed (h : root ∈ offeredRoots ctx names) :
    root ∈ listedRoots (RootManifest.listed ctx names before) := by
  have hadded : listedRoots (added ctx names before) = addedRoots ctx names before := by
    rw [added, listedRoots_append, listedRoots_map root?_value,
      listedRoots_map root?_entryWithoutPages, addedRoots]
  rw [listed_eq, listedRoots_append, hadded, List.mem_append, mem_addedRoots_iff]
  tauto

/-- **The list is complete after one patch.** -/
theorem listed_listed : RootManifest.listed ctx names (RootManifest.listed ctx names before) =
    RootManifest.listed ctx names before := by
  have happended : appended ctx (RootManifest.listed ctx names before) = [] :=
    firstNew_eq_nil fun s hs =>
      mem_listedRoots_listed (List.mem_append_left _ (List.mem_map_of_mem hs))
  have hdiscovered : discovered ctx names (RootManifest.listed ctx names before) = [] :=
    firstNew_eq_nil fun s hs => List.mem_append_left _ <|
      mem_listedRoots_listed (List.mem_append_right _ (List.mem_map_of_mem hs))
  rw [listed_eq, added, happended, hdiscovered, List.map_nil, List.map_nil, List.append_nil,
    List.append_nil]

theorem nodup_addedRoots : (addedRoots ctx names before).Nodup := by
  refine List.nodup_append.2 ⟨nodup_roots_firstNew, nodup_roots_firstNew, ?_⟩
  rintro root happended _ hdiscovered rfl
  exact (mem_roots_firstNew_iff.1 hdiscovered).2 (List.mem_append_right _ happended)

/-! ## Roots that are the same in a reading -/

/-- Two entries have the same root, where `read` says what counts of a
root. -/
def SameRoot (read : String → String) (a b : Value) : Prop :=
  ∃ r q, root? a = some r ∧ root? b = some q ∧ read r = read q

/-- No entry that is added has the same root as an entry before it. -/
structure ListsOnce (read : String → String) (before added : List Value) : Prop where
  new : ∀ e ∈ before, ∀ a ∈ added, ¬ SameRoot read e a
  distinct : added.Pairwise fun a b => ¬ SameRoot read a b

/-- A root that is added is the same as no other root, neither of those that
are listed nor of those that the build has to list. -/
def ToldApart (read : String → String) (ctx : Context) (names : List String)
    (before : List Value) : Prop :=
  ∀ root ∈ offeredRoots ctx names, root ∉ listedRoots before →
    ∀ other ∈ listedRoots before ++ offeredRoots ctx names, read other = read root → other = root

theorem new_iff : (∀ e ∈ before, ∀ a ∈ added ctx names before, ¬ SameRoot read e a) ↔
    ∀ r ∈ listedRoots before, ∀ q ∈ addedRoots ctx names before, read r ≠ read q := by
  have hroot : ∀ q, q ∈ addedRoots ctx names before ↔
      ∃ a ∈ added ctx names before, root? a = some q := by
    intro q
    rw [← List.mem_map, map_root?_added, List.mem_map_of_injective fun _ _ => Option.some.inj]
  constructor
  · intro h r hr q hq heq
    obtain ⟨e, he, hre⟩ := List.mem_filterMap.1 hr
    obtain ⟨a, ha, hqa⟩ := (hroot q).1 hq
    exact h e he a ha ⟨r, q, hre, hqa, heq⟩
  · rintro h e he a ha ⟨r, q, hre, hqa, heq⟩
    exact h r (List.mem_filterMap.2 ⟨e, he, hre⟩) q ((hroot q).2 ⟨a, ha, hqa⟩) heq

/-- The roots that are added are distinct letter by letter. -/
theorem distinct_iff : (added ctx names before).Pairwise (fun a b => ¬ SameRoot read a b) ↔
    ∀ r ∈ addedRoots ctx names before, ∀ q ∈ addedRoots ctx names before,
      read r = read q → r = q := by
  have hroots : (added ctx names before).Pairwise (fun a b => ¬ SameRoot read a b) ↔
      ((added ctx names before).map root?).Pairwise fun a b =>
        ∀ r q, a = some r → b = some q → read r ≠ read q := by
    rw [List.pairwise_map]
    refine List.Pairwise.iff fun a b => ?_
    constructor
    · exact fun h r q hr hq heq => h ⟨r, q, hr, hq, heq⟩
    · exact fun h ⟨r, q, hr, hq, heq⟩ => h r q hr hq heq
  rw [hroots, map_root?_added, List.pairwise_map, ← List.nodup_map_iff_inj_on nodup_addedRoots,
    List.Nodup, List.pairwise_map]
  refine List.Pairwise.iff fun r q => ?_
  exact ⟨fun h => h r q rfl rfl, fun h _ _ hr hq => Option.some.inj hr ▸ Option.some.inj hq ▸ h⟩

/-- **No root is listed a second time exactly if the roots are told
apart.** -/
theorem listsOnce_iff : ListsOnce read before (added ctx names before) ↔
    ToldApart read ctx names before := by
  constructor
  · rintro ⟨hnew, hdistinct⟩ root hoffered hunlisted other hother heq
    have hadded : root ∈ addedRoots ctx names before := mem_addedRoots_iff.2 ⟨hoffered, hunlisted⟩
    by_cases hlisted : other ∈ listedRoots before
    · exact absurd heq (new_iff.1 hnew other hlisted root hadded)
    · have hoffered : other ∈ offeredRoots ctx names :=
        (List.mem_append.1 hother).resolve_left hlisted
      exact distinct_iff.1 hdistinct other (mem_addedRoots_iff.2 ⟨hoffered, hlisted⟩) root hadded heq
  · intro h
    have happart : ∀ root ∈ addedRoots ctx names before,
        ∀ other ∈ listedRoots before ++ offeredRoots ctx names,
          read other = read root → other = root := by
      intro root hroot
      obtain ⟨hoffered, hunlisted⟩ := mem_addedRoots_iff.1 hroot
      exact h root hoffered hunlisted
    refine ⟨new_iff.2 fun r hr q hq heq => ?_, distinct_iff.2 fun r hr q hq heq => ?_⟩
    · have hsame := happart q hq r (List.mem_append_left _ hr) heq
      exact (mem_addedRoots_iff.1 hq).2 (hsame ▸ hr)
    · exact happart q hq r (List.mem_append_right _ (mem_addedRoots_iff.1 hr).1) heq

end RootManifest

end SplitBuild
