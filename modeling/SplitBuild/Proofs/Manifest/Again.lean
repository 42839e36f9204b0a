import SplitBuild.Proofs.Manifest.Merge
/-!
# Merging a manifest again

What a second merge can add are automatic placeholders: a merge takes them
from the manifest as it was read, before the fragment brings in components
of its own. **A second merge changes nothing exactly if the manifest is
`Settled`** (`merge_again_iff`): for every component of another subpackage
that the fragment brings in there is a placeholder without the second
merge. What was merged once is settled, and so a third merge never changes
anything (`merged_merged_merged`).
-/

namespace SplitBuild

open Json

namespace ComponentManifest

variable {ctx : Context} {component k source text : String} {fragment : Fragment}
variable {manifest : Object} {emitted : String → Bool}

/-! ## Merging twice -/

/-- A merge that laid the fragment over a manifest already lays the
automatic placeholders over it anew. -/
theorem merged_merged :
    merged ctx component fragment (merged ctx component fragment manifest) =
      overlay (merged ctx component fragment manifest) componentPlaceholder
        (autoPlaceholders ctx component (merged ctx component fragment manifest)
          ++ fragment.componentPlaceholder) := by
  set again := autoPlaceholders ctx component (merged ctx component fragment manifest)
  set result := merged ctx component fragment manifest with hresult
  -- the components of the fragment are in use already
  have hused : Holds (overlay result componentPlaceholder again) usingComponents
      fragment.usingComponents := by
    intro k s hs
    rw [inner_overlay_of_ne componentPlaceholder_ne, hresult, get?_merged_usingComponents, hs]
    rfl
  rw [← overlay_overlay, merged]
  change overlay (overlay (overlay result componentPlaceholder again) usingComponents
    fragment.usingComponents) _ _ = _
  rw [overlay_eq_self_iff.2 hused]

/-- Every component of another subpackage that the fragment brings in has a
placeholder: one of the fragment, an automatic one for what the manifest
used under its tag, or the same one in the manifest. -/
def Settled (ctx : Context) (component : String) (fragment : Fragment) (manifest : Object) :
    Prop :=
  ∀ k path, (Keyed.ofList fragment.usingComponents).get? k = some path →
    crosses ctx component (target component path) →
    k ∈ Keyed.keys fragment.componentPlaceholder ∨
      k ∈ Keyed.keys (autoPlaceholders ctx component manifest) ∨
      (inner manifest componentPlaceholder).get? k = some (.string ctx.placeholderTag)

/-- Once the fragment is laid over a manifest, the components of the
fragment that lie in another subpackage have automatic placeholders too. -/
theorem mem_keys_autoPlaceholders_merged_iff
    (hnodup : (Keyed.keys (inner manifest usingComponents)).Nodup) :
    k ∈ Keyed.keys (autoPlaceholders ctx component (merged ctx component fragment manifest)) ↔
      (∃ path, (Keyed.ofList fragment.usingComponents).get? k = some path ∧
        crosses ctx component (target component path)) ∨
      (k ∉ Keyed.keys fragment.usingComponents ∧
        k ∈ Keyed.keys (autoPlaceholders ctx component manifest)) := by
  rw [mem_keys_autoPlaceholders_iff, mem_keys_autoPlaceholders_iff,
    ← Keyed.get?_ofList_eq_none_iff]
  constructor
  · rintro ⟨path, hmem, hcross⟩
    have hused := Keyed.get?_of_mem (nodup_keys_merged hnodup) hmem
    rw [get?_merged_usingComponents] at hused
    cases hpath : (Keyed.ofList fragment.usingComponents).get? k with
    | some declared =>
      rw [hpath, Option.map_some, Option.some_or, Option.some.injEq, Value.string.injEq] at hused
      subst hused
      exact .inl ⟨declared, rfl, hcross⟩
    | none =>
      rw [hpath, Option.map_none, Option.none_or] at hused
      exact .inr ⟨rfl, path, Keyed.mem_of_get? hused, hcross⟩
  · rintro (⟨path, hpath, hcross⟩ | ⟨hnone, path, hmem, hcross⟩)
    · refine ⟨path, Keyed.mem_of_get? ?_, hcross⟩
      rw [get?_merged_usingComponents, hpath]
      rfl
    · refine ⟨path, Keyed.mem_of_get? ?_, hcross⟩
      rw [get?_merged_usingComponents, hnone, Keyed.get?_of_mem hnodup hmem]
      rfl

/-- A second merge changes nothing exactly if each placeholder that it lays
over the manifest is there. -/
theorem merged_merged_eq_iff_held :
    merged ctx component fragment (merged ctx component fragment manifest) =
      merged ctx component fragment manifest ↔
    ∀ k ∈ Keyed.keys (autoPlaceholders ctx component (merged ctx component fragment manifest)),
      k ∉ Keyed.keys fragment.componentPlaceholder →
      (inner (merged ctx component fragment manifest) componentPlaceholder).get? k =
        some (.string ctx.placeholderTag) := by
  have hfragment : Holds (merged ctx component fragment manifest) componentPlaceholder
      fragment.componentPlaceholder := holds_overlay
  rw [merged_merged, overlay_eq_self_iff]
  constructor
  · intro hheld k hagain hundeclared
    refine hheld k ctx.placeholderTag ?_
    rw [Keyed.get?_ofList_append, Keyed.get?_ofList_eq_none_iff.2 hundeclared, Option.none_or,
      get?_ofList_autoPlaceholders, if_pos hagain]
  · intro hplaced k tag htag
    rw [Keyed.get?_ofList_append] at htag
    cases hdeclared : (Keyed.ofList fragment.componentPlaceholder).get? k with
    | some declared =>
      rw [hdeclared, Option.some_or] at htag
      obtain rfl := Option.some.inj htag
      exact hfragment k declared hdeclared
    | none =>
      rw [hdeclared, Option.none_or, get?_ofList_autoPlaceholders] at htag
      split at htag
      · rename_i hagain
        obtain rfl := Option.some.inj htag
        exact hplaced k hagain (Keyed.get?_ofList_eq_none_iff.1 hdeclared)
      · cases htag

/-- **A second merge changes nothing exactly if the manifest is settled.** -/
theorem merged_merged_eq_iff (hnodup : (Keyed.keys (inner manifest usingComponents)).Nodup) :
    merged ctx component fragment (merged ctx component fragment manifest) =
      merged ctx component fragment manifest ↔ Settled ctx component fragment manifest := by
  rw [merged_merged_eq_iff_held]
  constructor
  · intro hplaced k path hpath hcross
    by_cases hdeclared : k ∈ Keyed.keys fragment.componentPlaceholder
    · exact .inl hdeclared
    by_cases hauto : k ∈ Keyed.keys (autoPlaceholders ctx component manifest)
    · exact .inr (.inl hauto)
    have hagain := (mem_keys_autoPlaceholders_merged_iff hnodup).2 (.inl ⟨path, hpath, hcross⟩)
    have htag := hplaced k hagain hdeclared
    rw [get?_merged_componentPlaceholder hdeclared, if_neg hauto] at htag
    exact .inr (.inr htag)
  · intro hsettled k hagain hundeclared
    rw [get?_merged_componentPlaceholder hundeclared]
    split
    · rfl
    · rename_i hauto
      -- without an automatic placeholder before, the component is one of the fragment
      rcases (mem_keys_autoPlaceholders_merged_iff hnodup).1 hagain with
        ⟨path, hpath, hcross⟩ | ⟨-, h⟩
      · exact ((hsettled k path hpath hcross).resolve_left hundeclared).resolve_left hauto
      · exact absurd h hauto

/-- **What was merged is settled**: what the fragment brought in is in use,
and the next merge places it. -/
theorem settled_merged :
    Settled ctx component fragment (merged ctx component fragment manifest) := by
  intro k path hpath hcross
  refine .inr (.inl (mem_keys_autoPlaceholders_iff.2 ⟨path, Keyed.mem_of_get? ?_, hcross⟩))
  rw [get?_merged_usingComponents, hpath]
  rfl

/-- A third merge changes nothing. -/
theorem merged_merged_merged (hnodup : (Keyed.keys (inner manifest usingComponents)).Nodup) :
    merged ctx component fragment
        (merged ctx component fragment (merged ctx component fragment manifest)) =
      merged ctx component fragment (merged ctx component fragment manifest) :=
  (merged_merged_eq_iff (nodup_keys_merged hnodup)).2 settled_merged

/-! ## Merging a text twice -/

/-- **Merging the text of a merge again changes nothing exactly if the
manifest is settled**, where the text is read back. -/
theorem merge_again_iff (hread : read component source = .ok manifest)
    (hback : (Value.object (merged ctx component fragment manifest)).ReadsBack)
    (hmerge : merge ctx component source fragment emitted = .ok (some text)) :
    merge ctx component text fragment emitted = .ok none ↔
      Settled ctx component fragment manifest := by
  have hsource := read_eq_ok_iff.1 hread
  have hagain : read component text = .ok (merged ctx component fragment manifest) := by
    rw [eq_pretty_of_merge hread hmerge]
    exact read_eq_ok_iff.2 hback
  rw [merge_eq_none_iff hagain, merged_merged_eq_iff (nodup_keys_inner hsource)]

/-! A page of `subA` for which a chart of `subB` is declared, and no
placeholder. -/

/-- The fragment that declares the chart. -/
def chartFragment : Fragment where
  usingComponents := [("chart", "/subB/chart")]
  componentPlaceholder := []

/-- The manifest of the page after a merge. -/
def chartManifest : String :=
  "\x7b\n  \"usingComponents\": \x7b\n    \"chart\": \"/subB/chart\"\n  \x7d\n\x7d"

/-- The first merge brings the chart in, and the second its placeholder. -/
theorem chart_merged_again :
    merge twoSubpackages "subA/page" "\x7b\x7d" chartFragment (fun _ => true) =
        .ok (some chartManifest) ∧
      merge twoSubpackages "subA/page" chartManifest chartFragment (fun _ => true) ≠ .ok none := by
  have hread : read "subA/page" "\x7b\x7d" = .ok [] := by decide +kernel
  have hmerge : merge twoSubpackages "subA/page" "\x7b\x7d" chartFragment (fun _ => true) =
      .ok (some chartManifest) := by
    decide +kernel
  have hback : (Value.object (merged twoSubpackages "subA/page" chartFragment [])).ReadsBack := by
    decide +kernel
  refine ⟨hmerge, fun hagain => ?_⟩
  have hsettled := (merge_again_iff hread hback hmerge).1 hagain
  have hplaced := hsettled "chart" "/subB/chart" (by decide +kernel) (by decide +kernel)
  revert hplaced
  decide +kernel

end ComponentManifest

end SplitBuild
