import SplitBuild.Proofs.Manifest.Merge
/-!
# What a merged manifest holds

A merge lays texts over two objects of a manifest, and `LaidOver` says what
that leaves to be read: the texts, everything else as it was, and the old
names in their places. Which texts these are is said of the manifest as it
was read: the components of the fragment, and the placeholders that
`Places` gives. **The result of a merge is the manifest with these texts
laid over it** (`isMerge_merged`), and it is what the text of a merge is
read as (`merge_exact`).
-/

namespace SplitBuild

open Json

namespace ComponentManifest

variable {ctx : Context} {component key path other k s : String} {fragment : Fragment}
variable {manifest before after : Object} {texts : Keyed String} {text : String → String → Prop}

/-! ## The texts of a merge -/

/-- The component that a path names in the manifest of `component` lies in
a subpackage, and `component` does not lie there. -/
def LiesElsewhere (ctx : Context) (component path : String) : Prop :=
  ∃ root, ctx.classify (target component path) = .subpackage root ∧
    ctx.classify component ≠ .subpackage root

theorem crosses_iff :
    crosses ctx component (target component path) ↔ LiesElsewhere ctx component path := by
  unfold crosses LiesElsewhere
  cases ctx.classify (target component path) with
  | main => simp [Package.isMain]
  | subpackage root =>
    constructor
    · intro h
      have hne : Package.subpackage root ≠ ctx.classify component := by
        simpa [Package.isMain] using h
      exact ⟨root, rfl, hne.symm⟩
    · rintro ⟨r, hr, hne⟩
      obtain rfl := Package.subpackage.inj hr
      simpa [Package.isMain] using hne.symm

/-- The components that a fragment brings in, by tag; the last one of each
tag counts. -/
def Uses (fragment : Fragment) (k path : String) : Prop :=
  (Keyed.ofList fragment.usingComponents).get? k = some path

/-- The placeholders that a merge lays over those of a manifest, by tag. -/
inductive Places (ctx : Context) (component : String) (fragment : Fragment) (manifest : Object) :
    String → String → Prop
  /-- The fragment declares one. -/
  | declared {k tag : String} : (Keyed.ofList fragment.componentPlaceholder).get? k = some tag →
      Places ctx component fragment manifest k tag
  /-- The fragment declares none, and the manifest itself uses a component
  of another subpackage. -/
  | derived {k path : String} : (Keyed.ofList fragment.componentPlaceholder).get? k = none →
      (inner manifest usingComponents).get? k = some (.string path) →
      LiesElsewhere ctx component path → Places ctx component fragment manifest k ctx.placeholderTag

/-- A manifest uses a component of another subpackage exactly under the tags
of its automatic placeholders. -/
theorem mem_keys_autoPlaceholders_iff_liesElsewhere
    (hnodup : (Keyed.keys (inner manifest usingComponents)).Nodup) :
    k ∈ Keyed.keys (autoPlaceholders ctx component manifest) ↔
      ∃ path, (inner manifest usingComponents).get? k = some (.string path) ∧
        LiesElsewhere ctx component path := by
  rw [mem_keys_autoPlaceholders_iff]
  refine exists_congr fun path => and_congr ?_ crosses_iff
  exact ⟨Keyed.get?_of_mem hnodup, Keyed.mem_of_get?⟩

/-- Automatic placeholders give way to those of the fragment. -/
theorem places_iff (hnodup : (Keyed.keys (inner manifest usingComponents)).Nodup) :
    Places ctx component fragment manifest k s ↔
      (Keyed.ofList (autoPlaceholders ctx component manifest
        ++ fragment.componentPlaceholder)).get? k = some s := by
  rw [Keyed.get?_ofList_append]
  -- on both sides a declared placeholder comes first
  cases hdeclared : (Keyed.ofList fragment.componentPlaceholder).get? k with
  | some tag =>
    rw [Option.some_or, Option.some.injEq]
    constructor
    · intro h
      cases h with
      | declared h => exact Option.some.inj (hdeclared.symm.trans h)
      | derived h => rw [hdeclared] at h; cases h
    · rintro rfl
      exact .declared hdeclared
  | none =>
    rw [Option.none_or, get?_ofList_autoPlaceholders, Option.ite_none_right_eq_some,
      mem_keys_autoPlaceholders_iff_liesElsewhere hnodup]
    constructor
    · intro h
      cases h with
      | declared h => rw [hdeclared] at h; cases h
      | derived _ hpath helsewhere => exact ⟨⟨_, hpath, helsewhere⟩, rfl⟩
    · rintro ⟨⟨path, hpath, helsewhere⟩, htag⟩
      obtain rfl := Option.some.inj htag
      exact .derived hdeclared hpath helsewhere

/-! ## Texts laid over an object -/

/-- `after` holds what `before` does with texts laid over the object under a
key. -/
structure LaidOver (before after : Object) (key : String) (text : String → String → Prop) :
    Prop where
  /-- No texts change nothing, also where no object stands under the key. -/
  same : (∀ k s, ¬ text k s) → after.get? key = before.get? key
  /-- Where there are texts, what is no object gives way to one. -/
  object : ∀ k s, text k s → after.get? key = some (.object (inner after key))
  written : ∀ k s, text k s → (inner after key).get? k = some (.string s)
  kept : ∀ k, (∀ s, ¬ text k s) → (inner after key).get? k = (inner before key).get? k
  /-- Old names keep their places, and new ones come after them. -/
  keys_prefix : Keyed.keys (inner before key) <+: Keyed.keys (inner after key)
  nodup : (Keyed.keys (inner after key)).Nodup

/-- Texts that are put into the object under a key are laid over it. -/
theorem laidOver_of_inner (hnodup : (Keyed.keys (inner before key)).Nodup)
    (htext : ∀ k s, text k s ↔ (Keyed.ofList texts).get? k = some s)
    (hsame : texts = [] → after.get? key = before.get? key)
    (hinner : inner after key = (inner before key).putAll (strings texts)) :
    LaidOver before after key text := by
  have hread : ∀ k, (inner after key).get? k =
      (((Keyed.ofList texts).get? k).map .string).or ((inner before key).get? k) := by
    intro k
    rw [hinner, get?_putAll_strings]
  have hwritten : ∀ k s, text k s → (inner after key).get? k = some (.string s) := by
    intro k s hs
    rw [hread, (htext k s).1 hs]
    rfl
  refine
    { same := fun hnone => hsame (List.eq_nil_iff_forall_not_mem.2 fun e he => ?_)
      object := fun k s hs => get?_of_inner_ne_nil fun hempty => ?_
      written := hwritten
      kept := fun k hnone => ?_
      keys_prefix := hinner ▸ Keyed.keys_prefix_putAll _ _
      nodup := hinner ▸ Keyed.nodup_keys_putAll hnodup }
  · -- an entry of the texts would leave a text under its name
    have hname : e.1 ∈ Keyed.keys texts := List.mem_map_of_mem he
    obtain ⟨s, hs⟩ := Option.isSome_iff_exists.1 (Keyed.isSome_get?_ofList_iff.2 hname)
    exact hnone e.1 s ((htext _ _).2 hs)
  · have hs := hwritten k s hs
    rw [hempty] at hs
    cases hs
  · have hunwritten : (Keyed.ofList texts).get? k = none :=
      Option.eq_none_iff_forall_ne_some.2 fun s hs => hnone s ((htext k s).2 hs)
    rw [hread, hunwritten]
    rfl

/-! ## The merge -/

/-- `after` is `before` merged: the components of the fragment are laid over
those in use and the placeholders over those that are there, and all else
stays. -/
structure IsMerge (ctx : Context) (component : String) (fragment : Fragment)
    (before after : Object) : Prop where
  uses : LaidOver before after usingComponents (Uses fragment)
  places : LaidOver before after componentPlaceholder (Places ctx component fragment before)
  kept : ∀ k, k ≠ usingComponents → k ≠ componentPlaceholder → after.get? k = before.get? k
  /-- Old names keep their places, and new ones come after them. -/
  keys_prefix : Keyed.keys before <+: Keyed.keys after
  nodup : (Keyed.keys after).Nodup

theorem keys_prefix_overlay : Keyed.keys manifest <+: Keyed.keys (overlay manifest key texts) := by
  by_cases htexts : texts = []
  · rw [htexts]
    exact List.prefix_refl _
  · rw [overlay_of_ne_nil htexts]
    exact Keyed.keys_prefix_putAll manifest [(key, _)]

theorem nodup_keys_overlay (h : (Keyed.keys manifest).Nodup) :
    (Keyed.keys (overlay manifest key texts)).Nodup := by
  by_cases htexts : texts = []
  · rwa [htexts]
  · rw [overlay_of_ne_nil htexts]
    exact Keyed.nodup_keys_put h

/-- **The result of a merge**, for a manifest with distinct names. -/
theorem isMerge_merged (hnodup : (Keyed.keys manifest).Nodup)
    (hinner : ∀ key, (Keyed.keys (inner manifest key)).Nodup) :
    IsMerge ctx component fragment manifest (merged ctx component fragment manifest) where
  uses := by
    refine laidOver_of_inner (hinner _) (fun _ _ => .rfl) (fun hnone => ?_)
      inner_merged_usingComponents
    rw [merged, get?_overlay_of_ne componentPlaceholder_ne, hnone]
    exact get?_overlay_of_ne componentPlaceholder_ne
  places := by
    -- two overlays, of the automatic placeholders and of the fragment, come to one
    refine laidOver_of_inner (hinner _) (fun _ _ => places_iff (hinner _)) (fun hnone => ?_) ?_
    · -- without placeholders only the components in use were written
      obtain ⟨hauto, hdeclared⟩ := List.append_eq_nil_iff.1 hnone
      rw [merged, hauto, hdeclared]
      exact get?_overlay_of_ne componentPlaceholder_ne.symm
    · rw [inner_merged_componentPlaceholder, strings_append, Keyed.putAll_append]
  kept k hused hplaced := by
    rw [merged, get?_overlay_of_ne hplaced.symm, get?_overlay_of_ne hused.symm,
      get?_overlay_of_ne hplaced.symm]
  keys_prefix := (keys_prefix_overlay.trans keys_prefix_overlay).trans keys_prefix_overlay
  nodup := nodup_keys_overlay (nodup_keys_overlay (nodup_keys_overlay hnodup))

/-- **A merge, exactly.** A manifest is left alone if it is its own merge.
Otherwise the text of the merge is written, and it is read as the merge if
it is read back at all. -/
theorem merge_exact {source : String} {emitted : String → Bool}
    (hsource : Value.read? source = some (.object manifest)) :
    ∃ result, IsMerge ctx component fragment manifest result ∧
      (merge ctx component source fragment emitted = .ok none ↔ result = manifest) ∧
      ∀ text, merge ctx component source fragment emitted = .ok (some text) →
        text = (Value.object result).pretty ∧
          ((Value.object result).ReadsBack → Value.read? text = some (.object result)) := by
  have hread : read component source = .ok manifest := read_eq_ok_iff.2 hsource
  refine ⟨merged ctx component fragment manifest,
    isMerge_merged (Value.distinct_of_read? hsource).1 fun _ => nodup_keys_inner hsource,
    merge_eq_none_iff hread, fun text hmerge => ?_⟩
  have htext := eq_pretty_of_merge hread hmerge
  exact ⟨htext, fun hback => htext ▸ hback⟩

/-! A page of `subA` that uses a chart of `subB`. -/

/-- The manifest of the page. -/
def chartObject : Object :=
  [("usingComponents", .object [("chart", .string "/subB/chart")])]

/-- The chart has no placeholder, and the merge gives it one. -/
theorem chart_placed :
    Value.read? (Value.object chartObject).pretty = some (.object chartObject) ∧
      ∃ result, IsMerge twoSubpackages "subA/page" .empty chartObject result ∧
        (inner result componentPlaceholder).get? "chart" = some (.string "view") ∧
        merge twoSubpackages "subA/page" (Value.object chartObject).pretty .empty (fun _ => true) ≠
          .ok none := by
  have hsource : Value.read? (Value.object chartObject).pretty = some (.object chartObject) := by
    decide +kernel
  have hused : (inner chartObject usingComponents).get? "chart" = some (.string "/subB/chart") := by
    decide
  have hchart : Places twoSubpackages "subA/page" .empty chartObject "chart" "view" :=
    .derived rfl hused ⟨"subB", by decide, by decide⟩
  obtain ⟨result, hmerge, hnone, -⟩ : ∃ result,
      IsMerge twoSubpackages "subA/page" .empty chartObject result ∧
        (merge twoSubpackages "subA/page" (Value.object chartObject).pretty .empty (fun _ => true) =
          .ok none ↔ result = chartObject) ∧ _ := merge_exact hsource
  have hplaced := hmerge.places.written "chart" "view" hchart
  -- were the manifest left alone, the placeholder would be in it already
  refine ⟨hsource, result, hmerge, hplaced, fun h => ?_⟩
  rw [hnone.1 h] at hplaced
  revert hplaced
  decide

end ComponentManifest

end SplitBuild
