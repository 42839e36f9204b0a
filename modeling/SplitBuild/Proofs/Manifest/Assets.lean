import SplitBuild.Proofs.AssetTable
import SplitBuild.Proofs.Manifest.Patch
import Mathlib.Data.Option.Basic
/-!
# The manifests of the assets

A merge that reports nothing leaves all manifests merged
(`allMerged_mergeManifests`), and a patch leaves the root manifest patched
(`isPatched_patchAsset`) and keeps all manifests merged
(`allMerged_patchAsset`). Both write a manifest as the text of an object;
`written` lists the objects, which have to be read back.
-/

namespace SplitBuild

open Json

variable {ctx : Context} {assets : AssetTable} {component name source text : String}

namespace FragmentTable

/-- No fragment brings in a component. -/
def BringsInNothing (fragments : FragmentTable) : Prop :=
  ∀ (component : String) (fragment : Fragment), fragments[component]? = some fragment →
    fragment.usingComponents = []

theorem BringsInNothing.usingComponents_eq_nil {fragments : FragmentTable}
    (h : fragments.BringsInNothing) (component : String) :
    (fragments[component]?.getD .empty).usingComponents = [] := by
  cases hfragment : fragments[component]? with
  | none => rfl
  | some fragment => exact h component fragment hfragment

end FragmentTable

namespace ComponentManifest

/-- The manifests that a merge of the assets writes. -/
def written (ctx : Context) (fragments : FragmentTable) (assets : AssetTable) : List Value :=
  (emittedComponents ctx assets).filterMap fun component => do
    let source ← assets.source? (component ++ ctx.manifestExtension)
    let manifest ← (Value.read? source).bind Value.entries?
    match mergeObject ctx component (fragments[component]?.getD .empty) (isEmitted ctx assets)
      manifest with
    | .ok result => result.map Value.object
    | .error _ => none

theorem mem_emittedComponents_iff :
    component ∈ emittedComponents ctx assets ↔ isEmitted ctx assets component := by
  simp only [emittedComponents, isEmitted, List.mem_filterMap, Path.stem?_eq_some_iff,
    exists_eq_right, AssetTable.names, Std.ExtTreeMap.mem_keys, Std.ExtTreeMap.mem_iff_contains]

/-- A merge that changes a manifest writes the text of the merged one. -/
theorem merged_of_merge {fragment : Fragment} {emitted : String → Bool}
    (h : merge ctx component source fragment emitted = .ok (some text)) :
    ∃ manifest, Value.read? source = some (.object manifest) ∧
      mergeObject ctx component fragment emitted manifest =
        .ok (some (merged ctx component fragment manifest)) ∧
      text = (Value.object (merged ctx component fragment manifest)).pretty := by
  cases hread : read component source with
  | error reports =>
    rw [merge, hread] at h
    cases h
  | ok manifest =>
    obtain ⟨result, hresult, rfl⟩ := (merge_eq_some_iff hread).1 h
    obtain rfl := (mergeObject_eq_some_iff.1 hresult).1
    exact ⟨manifest, read_eq_ok_iff.1 hread, hresult, rfl⟩

/-- A merge that fails says why. -/
theorem ne_nil_of_merge_error {fragment : Fragment} {emitted : String → Bool}
    {ds : List Diagnostic} (h : merge ctx component source fragment emitted = .error ds) : ds ≠ [] := by
  cases hread : read component source with
  | error unread =>
    rw [merge, hread] at h
    obtain rfl : unread = ds := Except.error.inj h
    unfold read at hread
    split at hread
    · obtain rfl := Except.error.inj hread
      exact List.cons_ne_nil _ _
    · cases hread
    · obtain rfl := Except.error.inj hread
      exact List.cons_ne_nil _ _
  | ok manifest =>
    obtain ⟨-, -, hne⟩ := mergeObject_eq_error_iff.1 ((merge_eq_error_iff hread).1 h)
    exact hne

theorem rewritten?_eq_some_iff {fragments : FragmentTable} :
    rewritten? ctx fragments assets name source = some text ↔
      ∃ component, name = component ++ ctx.manifestExtension ∧ isEmitted ctx assets component ∧
        mergeEmitted ctx fragments assets component source = .ok (some text) := by
  constructor
  · intro h
    obtain ⟨component, hstem, h⟩ := Option.bind_eq_some_iff.1 h
    obtain ⟨_, hguard, h⟩ := Option.bind_eq_some_iff.1 h
    refine ⟨component, Path.stem?_eq_some_iff.1 hstem, (Option.guard_eq_some' _).1 hguard, ?_⟩
    cases hmerge : mergeEmitted ctx fragments assets component source with
    | error ds =>
      rw [hmerge] at h
      cases h
    | ok result =>
      rw [hmerge] at h
      exact congrArg Except.ok h
  · rintro ⟨component, rfl, hemitted, hmerge⟩
    have hguard : guard (isEmitted ctx assets component) = some () :=
      (Option.guard_eq_some' _).2 hemitted
    simp only [rewritten?, Path.stem?_eq_some_iff.2 rfl, Option.bind_eq_bind, Option.bind_some, hguard,
      hmerge]

/-- Where nothing is reported every manifest was merged. -/
theorem exists_ok_of_reports {fragments : FragmentTable} (h : reports ctx fragments assets = [])
    (hemitted : isEmitted ctx assets component)
    (hsource : assets.source? (component ++ ctx.manifestExtension) = some source) :
    ∃ result, mergeEmitted ctx fragments assets component source = .ok result := by
  cases hmerge : mergeEmitted ctx fragments assets component source with
  | ok result => exact ⟨result, rfl⟩
  | error ds =>
    obtain ⟨d, hd⟩ := List.exists_mem_of_ne_nil ds (ne_nil_of_merge_error hmerge)
    have hmem : d ∈ reports ctx fragments assets := by
      refine List.mem_flatMap.2 ⟨component, mem_emittedComponents_iff.2 hemitted, ?_⟩
      simpa only [hsource, Option.map_some, hmerge] using hd
    rw [h] at hmem
    cases hmem

theorem mem_written {fragments : FragmentTable} {manifest result : Object}
    (hemitted : isEmitted ctx assets component)
    (hsource : assets.source? (component ++ ctx.manifestExtension) = some source)
    (hread : Value.read? source = some (.object manifest))
    (hmerge : mergeObject ctx component (fragments[component]?.getD .empty) (isEmitted ctx assets)
      manifest = .ok (some result)) :
    .object result ∈ written ctx fragments assets := by
  refine List.mem_filterMap.2 ⟨component, mem_emittedComponents_iff.2 hemitted, ?_⟩
  simp only [hsource, hread, Option.bind_eq_bind, Option.bind_some, Value.entries?, hmerge,
    Option.map_some]

/-! ## Manifests that are merged -/

variable {fragments : FragmentTable} {f : String → String → Option String} {assets' : AssetTable}

/-- Which components were emitted is a matter of names. -/
theorem isEmitted_congr (h : assets.names = assets'.names) :
    isEmitted ctx assets = isEmitted ctx assets' := by
  funext component
  have hmem : component ++ ctx.templateExtension ∈ assets ↔
      component ++ ctx.templateExtension ∈ assets' := AssetTable.mem_iff_of_names_eq h
  rw [isEmitted, isEmitted, Bool.eq_iff_iff]
  exact hmem

theorem mergeEmitted_congr (h : assets.names = assets'.names) :
    mergeEmitted ctx fragments assets = mergeEmitted ctx fragments assets' := by
  funext component source
  rw [mergeEmitted, mergeEmitted, isEmitted_congr h]

/-- What becomes of a manifest does not depend on the contents of other
assets. -/
theorem rewritten?_congr (h : assets.names = assets'.names) :
    rewritten? ctx fragments assets = rewritten? ctx fragments assets' := by
  funext name source
  simp only [rewritten?, isEmitted_congr h, mergeEmitted_congr h]

theorem isEmitted_rewrite : isEmitted ctx (assets.rewrite f) = isEmitted ctx assets :=
  isEmitted_congr (AssetTable.names_rewrite assets f)

theorem mergeEmitted_rewrite :
    mergeEmitted ctx fragments (assets.rewrite f) = mergeEmitted ctx fragments assets :=
  mergeEmitted_congr (AssetTable.names_rewrite assets f)

/-- No manifest of an emitted component changes when it is merged. -/
def AllMerged (ctx : Context) (fragments : FragmentTable) (assets : AssetTable) : Prop :=
  ∀ component source, isEmitted ctx assets component →
    assets.source? (component ++ ctx.manifestExtension) = some source →
      mergeEmitted ctx fragments assets component source = .ok none

theorem AllMerged.rewritten?_eq_none (h : AllMerged ctx fragments assets)
    (hsource : assets.source? name = some source) :
    rewritten? ctx fragments assets name source = none := by
  refine Option.eq_none_iff_forall_ne_some.2 fun text htext => ?_
  obtain ⟨component, rfl, hemitted, hmerge⟩ := rewritten?_eq_some_iff.1 htext
  rw [h component source hemitted hsource] at hmerge
  cases hmerge

theorem AllMerged.reports_eq_nil (h : AllMerged ctx fragments assets) :
    reports ctx fragments assets = [] := by
  refine List.eq_nil_iff_forall_not_mem.2 fun d hd => ?_
  obtain ⟨component, hcomponent, hd⟩ := List.mem_flatMap.1 hd
  have hemitted := mem_emittedComponents_iff.1 hcomponent
  cases hsource : assets.source? (component ++ ctx.manifestExtension) with
  | none => simp [hsource] at hd
  | some source => simp [hsource, h component source hemitted hsource] at hd

/-- **Where nothing is reported, all manifests are merged.** -/
theorem allMerged_mergeManifests (hfragments : fragments.BringsInNothing)
    (hback : ∀ v ∈ written ctx fragments assets, v.ReadsBack)
    (h : reports ctx fragments assets = []) :
    AllMerged ctx fragments (mergeManifests ctx fragments assets).2 := by
  intro component source hemitted hsource
  rw [mergeManifests, isEmitted_rewrite] at hemitted
  rw [mergeManifests, mergeEmitted_rewrite]
  obtain ⟨old, hold, hcase⟩ := AssetTable.source_of_rewrite hsource
  obtain ⟨result, hmerge⟩ := exists_ok_of_reports h hemitted hold
  cases result with
  | none =>
    rcases hcase with ⟨-, rfl⟩ | hsome
    · exact hmerge
    · obtain ⟨other, hname, -, hother⟩ := rewritten?_eq_some_iff.1 hsome
      obtain rfl := (String.append_left_inj _).1 hname
      rw [hmerge] at hother
      cases hother
  | some text =>
    -- the manifest has the text of a merged object, which is read back
    have htext := rewritten?_eq_some_iff.2 ⟨component, rfl, hemitted, hmerge⟩
    obtain rfl : text = source := by
      rcases hcase with ⟨hnone, -⟩ | hsome
      · exact absurd (hnone.symm.trans htext) (by simp)
      · exact Option.some.inj (htext.symm.trans hsome)
    obtain ⟨manifest, hread, hobject, rfl⟩ := merged_of_merge hmerge
    have hagain := hback _ (mem_written hemitted hold hread hobject)
    refine (merge_eq_none_iff (read_eq_ok_iff.2 hagain)).2 ?_
    exact merged_merged_of_nil (hfragments.usingComponents_eq_nil component)
      (nodup_keys_inner hread)

end ComponentManifest

namespace RootManifest

/-- The root manifest that a patch of the assets writes, where it changes. -/
def written (ctx : Context) (assets : AssetTable) : List Value :=
  ((assets.source? ctx.appManifest).bind fun source => do
    let manifest ← (Value.read? source).bind Value.entries?
    match patchObject ctx assets.names manifest with
    | .ok result => if (Value.object result).pretty = source then none else some (.object result)
    | .error _ => none).toList

theorem mem_written {manifest result : Object}
    (hsource : assets.source? ctx.appManifest = some source)
    (hread : Value.read? source = some (.object manifest))
    (hpatch : patchObject ctx assets.names manifest = .ok result)
    (hne : (Value.object result).pretty ≠ source) : .object result ∈ written ctx assets := by
  simp only [written, hsource, hread, Option.bind_eq_bind, Option.bind_some, Value.entries?, hpatch,
    if_neg hne, Option.toList_some, List.mem_singleton]

/-- The root manifest does not change when it is patched. -/
def IsPatched (ctx : Context) (assets : AssetTable) : Prop :=
  ∀ source, assets.source? ctx.appManifest = some source →
    rewritten? ctx assets.names ctx.appManifest source = none

theorem IsPatched.rewritten?_eq_none (h : IsPatched ctx assets)
    (hsource : assets.source? name = some source) :
    rewritten? ctx assets.names name source = none := by
  by_cases hname : name = ctx.appManifest
  · subst hname
    exact h source hsource
  · exact if_neg hname

/-- **A root manifest that was patched needs no other patch.** -/
theorem isPatched_patchAsset (hback : ∀ v ∈ written ctx assets, v.NotMisread) :
    IsPatched ctx (patchAsset ctx assets) := by
  intro source hsource
  rw [patchAsset, AssetTable.names_rewrite]
  obtain ⟨old, hold, ⟨hnone, rfl⟩ | hsome⟩ := AssetTable.source_of_rewrite hsource
  · exact hnone
  · obtain ⟨-, manifest, result, hread, hpatch, rfl, hne⟩ := patched_of_rewritten? hsome
    exact rewritten?_patched hpatch (hback _ (mem_written hold hread hpatch hne))

/-- **The manifests of all components stay merged**, that of a root page
too, which the patch changes. -/
theorem allMerged_patchAsset {fragments : FragmentTable} (hfragments : fragments.BringsInNothing)
    (hback : ∀ v ∈ written ctx assets, v.ReadsBack)
    (h : ComponentManifest.AllMerged ctx fragments assets) :
    ComponentManifest.AllMerged ctx fragments (patchAsset ctx assets) := by
  intro component source hemitted hsource
  rw [patchAsset, ComponentManifest.isEmitted_rewrite] at hemitted
  rw [patchAsset, ComponentManifest.mergeEmitted_rewrite]
  obtain ⟨old, hold, ⟨-, rfl⟩ | hnew⟩ := AssetTable.source_of_rewrite hsource
  · exact h component source hemitted hold
  -- the manifest of this component is the root manifest
  · obtain ⟨hname, manifest, result, hread, hpatch, rfl, hne⟩ := patched_of_rewritten? hnew
    have hmerged := (ComponentManifest.merge_eq_none_iff
      (ComponentManifest.read_eq_ok_iff.2 hread)).1 (h component old hemitted hold)
    rw [hname] at hold
    have hagain := hback _ (mem_written hold hread hpatch hne)
    refine (ComponentManifest.merge_eq_none_iff (ComponentManifest.read_eq_ok_iff.2 hagain)).2 ?_
    exact ComponentManifest.merged_patched (hfragments.usingComponents_eq_nil component) hmerged
      hpatch

end RootManifest

end SplitBuild
