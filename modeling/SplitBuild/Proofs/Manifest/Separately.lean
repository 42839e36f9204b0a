import SplitBuild.Proofs.Classification
import SplitBuild.Proofs.Manifest.Assets
/-!
# Manifests merged one by one

The manifest of a component depends on itself, on the fragment of the
component and on which templates there are. Merging the manifest of another
component changes none of these. So a table can be merged one manifest at a
time, each read from what the others have left, and comes out the same in
whatever order (`foldl_mergeOne`). **A merge of the table is the merge of
each manifest as it was at first** (`mergeManifests_separately`), also where
some of them fail.
-/

namespace SplitBuild

open Json

namespace ComponentManifest

variable {ctx : Context} {fragments : FragmentTable} {assets : AssetTable}
variable {component name : String} {outcome : Except (List Diagnostic) (Option String)}

/-- The manifest of an emitted component, as a table has it, is merged to an
outcome. -/
structure MergesTo (ctx : Context) (fragments : FragmentTable) (assets : AssetTable)
    (component : String) (outcome : Except (List Diagnostic) (Option String)) : Prop where
  emitted : component ++ ctx.templateExtension ∈ assets
  merges : ∃ source, assets.source? (component ++ ctx.manifestExtension) = some source ∧
    merge ctx component source (fragments[component]?.getD .empty)
      (fun path => assets.contains (path ++ ctx.templateExtension)) = outcome

/-- A table with the manifest of one component merged. Where it changes nothing
or fails, or there is no manifest, the table stays. -/
def mergeOne (ctx : Context) (fragments : FragmentTable) (assets : AssetTable)
    (component : String) : AssetTable :=
  match (assets.source? (component ++ ctx.manifestExtension)).map
      (mergeEmitted ctx fragments assets component) with
  | some (.ok (some text)) => assets.replace (component ++ ctx.manifestExtension) text.toUTF8
  | _ => assets

/-! ## One manifest -/

theorem isEmitted_iff : isEmitted ctx assets component ↔ component ++ ctx.templateExtension ∈ assets :=
  Std.ExtTreeMap.mem_iff_contains.symm

theorem mergesTo_iff : MergesTo ctx fragments assets component outcome ↔
    isEmitted ctx assets component ∧
      (assets.source? (component ++ ctx.manifestExtension)).map
        (mergeEmitted ctx fragments assets component) = some outcome := by
  rw [isEmitted_iff, Option.map_eq_some_iff]
  exact ⟨fun h => ⟨h.emitted, h.merges⟩, fun h => ⟨h.1, h.2⟩⟩

/-- The new text of a manifest is what it is merged to. -/
theorem rewritten?_eq_some_iff_mergesTo {source text : String}
    (hsource : assets.source? name = some source) :
    rewritten? ctx fragments assets name source = some text ↔
      ∃ component, name = component ++ ctx.manifestExtension ∧
        MergesTo ctx fragments assets component (.ok (some text)) := by
  rw [rewritten?_eq_some_iff]
  refine exists_congr fun component => and_congr_right fun hname => ?_
  subst hname
  rw [mergesTo_iff, hsource, Option.map_some, Option.some.injEq]

/-- A table keeps the contents of an asset that is merged to no text. -/
theorem getElem?_mergeManifests_eq_self
    (h : ∀ component text, name = component ++ ctx.manifestExtension →
      ¬ MergesTo ctx fragments assets component (.ok (some text))) :
    (mergeManifests ctx fragments assets).2[name]? = assets[name]? := by
  refine AssetTable.getElem?_rewrite_eq_self fun source hsource => ?_
  refine Option.eq_none_iff_forall_ne_some.2 fun text htext => ?_
  obtain ⟨component, hname, hmerges⟩ := (rewritten?_eq_some_iff_mergesTo hsource).1 htext
  exact h component text hname hmerges

/-- A manifest that is merged to a text gives way to it. -/
theorem getElem?_mergeManifests_of_mergesTo {text : String}
    (h : MergesTo ctx fragments assets component (.ok (some text))) :
    (mergeManifests ctx fragments assets).2[component ++ ctx.manifestExtension]? =
      some text.toUTF8 := by
  obtain ⟨source, hsource, -⟩ := h.merges
  have htext := (rewritten?_eq_some_iff_mergesTo hsource).2 ⟨component, rfl, h⟩
  rw [mergeManifests, AssetTable.getElem?_rewrite_of_source? hsource, htext, Option.map_some,
    Option.some_or]

/-- A manifest is merged to one outcome. -/
theorem MergesTo.unique {outcome' : Except (List Diagnostic) (Option String)}
    (h : MergesTo ctx fragments assets component outcome)
    (h' : MergesTo ctx fragments assets component outcome') : outcome = outcome' :=
  Option.some.inj ((mergesTo_iff.1 h).2.symm.trans (mergesTo_iff.1 h').2)

/-! ## One after the other -/

/-- A merge of one manifest is a rewriting of that manifest. -/
theorem mergeOne_eq_rewrite (hemitted : isEmitted ctx assets component) :
    mergeOne ctx fragments assets component = assets.rewrite fun name source =>
      if name = component ++ ctx.manifestExtension then rewritten? ctx fragments assets name source
      else none := by
  by_cases h : ∃ text, MergesTo ctx fragments assets component (.ok (some text))
  · obtain ⟨text, hmerges⟩ := h
    obtain ⟨source, hsource, -⟩ := hmerges.merges
    have htext := (rewritten?_eq_some_iff_mergesTo hsource).2 ⟨component, rfl, hmerges⟩
    rw [mergeOne, (mergesTo_iff.1 hmerges).2]
    refine (AssetTable.replace_eq_rewrite (AssetTable.mem_of_source? hsource) text).trans ?_
    refine AssetTable.rewrite_congr fun name other hother => ?_
    by_cases hname : name = component ++ ctx.manifestExtension
    · subst hname
      obtain rfl : source = other := Option.some.inj (hsource.symm.trans hother)
      rw [if_pos rfl, if_pos rfl, htext]
    · rw [if_neg hname, if_neg hname]
  · have hstays : mergeOne ctx fragments assets component = assets := by
      unfold mergeOne
      split
      · rename_i text htext
        exact absurd ⟨text, mergesTo_iff.2 ⟨hemitted, htext⟩⟩ h
      · rfl
    rw [hstays]
    refine (AssetTable.rewrite_eq_self fun name source hsource => ?_).symm
    by_cases hname : name = component ++ ctx.manifestExtension
    · rw [if_pos hname]
      refine Option.eq_none_iff_forall_ne_some.2 fun text htext => ?_
      obtain ⟨other, hother, hmerges⟩ := (rewritten?_eq_some_iff_mergesTo hsource).1 htext
      obtain rfl : component = other := (String.append_left_inj _).1 (hname.symm.trans hother)
      exact h ⟨text, hmerges⟩
    · exact if_neg hname

/-- **Manifests merged one after the other**, each read from what the others
have left, come out as they would have at first. -/
theorem foldl_mergeOne {order : List String} (hnodup : order.Nodup)
    (hemitted : ∀ component ∈ order, isEmitted ctx assets component) :
    order.foldl (mergeOne ctx fragments) assets = assets.rewrite fun name source =>
      if ∃ component ∈ order, name = component ++ ctx.manifestExtension
      then rewritten? ctx fragments assets name source else none := by
  induction order generalizing assets with
  | nil =>
    refine (AssetTable.rewrite_eq_self fun name source _ => if_neg ?_).symm
    rintro ⟨component, hcomponent, -⟩
    exact absurd hcomponent List.not_mem_nil
  | cons component order ih =>
    obtain ⟨hnew, hnodup⟩ := List.nodup_cons.1 hnodup
    obtain ⟨hfirst, hrest⟩ := List.forall_mem_cons.1 hemitted
    have hone : mergeOne ctx fragments assets component = _ := mergeOne_eq_rewrite hfirst
    have hnames : (mergeOne ctx fragments assets component).names = assets.names := by
      rw [hone, AssetTable.names_rewrite]
    have hlater : ∀ other ∈ order,
        isEmitted ctx (mergeOne ctx fragments assets component) other := fun other hother => by
      rw [isEmitted_congr hnames]
      exact hrest other hother
    have hapart : ∀ name, name = component ++ ctx.manifestExtension →
        ¬ ∃ other ∈ order, name = other ++ ctx.manifestExtension := by
      rintro name hname ⟨other, hother, hsame⟩
      obtain rfl : component = other := (String.append_left_inj _).1 (hname.symm.trans hsame)
      exact hnew hother
    rw [List.foldl_cons, ih hnodup hlater, rewritten?_congr hnames, hone, AssetTable.rewrite_rewrite]
    · refine AssetTable.rewrite_congr fun name source _ => ?_
      have hcons : (∃ other ∈ component :: order, name = other ++ ctx.manifestExtension) ↔
          name = component ++ ctx.manifestExtension ∨
            ∃ other ∈ order, name = other ++ ctx.manifestExtension := by
        simp only [List.mem_cons, exists_eq_or_imp]
      by_cases hname : name = component ++ ctx.manifestExtension
      · rw [if_pos hname, if_neg (hapart name hname), if_pos (hcons.2 (.inl hname)), Option.or_none]
      · simp only [hcons, hname, if_false, Option.none_or, false_or]
    · intro name
      by_cases hname : name = component ++ ctx.manifestExtension
      · exact .inr fun source => if_neg (hapart name hname)
      · exact .inl fun source => if_neg hname

/-- The manifests of all emitted components, merged one after the other in any
order, come out as in a merge of the table. -/
theorem foldl_mergeOne_eq {order : List String} (hnodup : order.Nodup)
    (hall : ∀ component, component ∈ order ↔ component ++ ctx.templateExtension ∈ assets) :
    order.foldl (mergeOne ctx fragments) assets = (mergeManifests ctx fragments assets).2 := by
  have hemitted : ∀ component ∈ order, isEmitted ctx assets component := fun component hmem =>
    isEmitted_iff.2 ((hall component).1 hmem)
  rw [foldl_mergeOne hnodup hemitted, mergeManifests]
  refine AssetTable.rewrite_congr fun name source _ => ?_
  by_cases hname : ∃ component ∈ order, name = component ++ ctx.manifestExtension
  · exact if_pos hname
  · rw [if_neg hname]
    refine (Option.eq_none_iff_forall_ne_some.2 fun text htext => hname ?_).symm
    obtain ⟨component, rfl, hcomponent, -⟩ := rewritten?_eq_some_iff.1 htext
    exact ⟨component, (hall component).2 (isEmitted_iff.1 hcomponent), rfl⟩

/-! ## The reports -/

/-- What is reported of the manifest of a component, where its merge fails. -/
def failure? (ctx : Context) (fragments : FragmentTable) (assets : AssetTable)
    (component : String) : Option (List Diagnostic) :=
  match (assets.source? (component ++ ctx.manifestExtension)).map
      (mergeEmitted ctx fragments assets component) with
  | some (.error reports) => some reports
  | _ => none

theorem failure?_eq_some_iff {ds : List Diagnostic} (hemitted : isEmitted ctx assets component) :
    failure? ctx fragments assets component = some ds ↔
      MergesTo ctx fragments assets component (.error ds) := by
  rw [mergesTo_iff, and_iff_right hemitted, failure?]
  cases (assets.source? (component ++ ctx.manifestExtension)).map
      (mergeEmitted ctx fragments assets component) with
  | none => simp
  | some outcome => cases outcome <;> simp

/-- The components whose merge fails, with what is reported of them. -/
def failures (ctx : Context) (fragments : FragmentTable) (assets : AssetTable) :
    List (String × List Diagnostic) :=
  (emittedComponents ctx assets).filterMap fun component =>
    (failure? ctx fragments assets component).map fun ds => (component, ds)

theorem mem_failures_iff {ds : List Diagnostic} : (component, ds) ∈ failures ctx fragments assets ↔
    MergesTo ctx fragments assets component (.error ds) := by
  simp only [failures, List.mem_filterMap, Option.map_eq_some_iff, Prod.mk.injEq]
  constructor
  · rintro ⟨component, hmem, ds, hds, rfl, rfl⟩
    exact (failure?_eq_some_iff (mem_emittedComponents_iff.1 hmem)).1 hds
  · intro h
    have hemitted := isEmitted_iff.2 h.emitted
    exact ⟨component, mem_emittedComponents_iff.2 hemitted, ds, (failure?_eq_some_iff hemitted).2 h,
      rfl, rfl⟩

/-- Components are merged in the order of their templates. -/
theorem emittedComponents_pairwise (ctx : Context) (assets : AssetTable) :
    (emittedComponents ctx assets).Pairwise fun component other =>
      Text.bytes (component ++ ctx.templateExtension) <
        Text.bytes (other ++ ctx.templateExtension) := by
  refine (AssetTable.names_pairwise assets).filterMap _ fun m n hmn component hm other hn => ?_
  rw [← Path.stem?_eq_some_iff.1 hm, ← Path.stem?_eq_some_iff.1 hn]
  exact hmn

theorem failures_pairwise (ctx : Context) (fragments : FragmentTable) (assets : AssetTable) :
    (failures ctx fragments assets).Pairwise fun p q =>
      Text.bytes (p.1 ++ ctx.templateExtension) < Text.bytes (q.1 ++ ctx.templateExtension) := by
  refine (emittedComponents_pairwise ctx assets).filterMap _ fun m n hmn p hp q hq => ?_
  obtain ⟨-, -, rfl⟩ := Option.map_eq_some_iff.1 hp
  obtain ⟨-, -, rfl⟩ := Option.map_eq_some_iff.1 hq
  exact hmn

theorem reports_eq_flatMap (ctx : Context) (fragments : FragmentTable) (assets : AssetTable) :
    reports ctx fragments assets = (failures ctx fragments assets).flatMap Prod.snd := by
  rw [reports, failures]
  induction emittedComponents ctx assets with
  | nil => rfl
  | cons component rest ih =>
    rw [List.flatMap_cons, ih, List.filterMap_cons, failure?]
    cases (assets.source? (component ++ ctx.manifestExtension)).map
        (mergeEmitted ctx fragments assets component) with
    | none => rfl
    | some outcome => cases outcome <;> rfl

/-- **A merge of a table is the merge of each of its manifests, as it was at
first.** The names stay. An asset changes only where it is the manifest of an
emitted component that is merged to a text, and each such manifest then has
that text; one whose merge fails keeps its bytes. What is reported is what
the failing merges report, in the order of the templates of their components.
And merging the manifests in place, one after the other, comes to the same
in any order. -/
theorem mergeManifests_separately (ctx : Context) (fragments : FragmentTable)
    (assets : AssetTable) :
    (mergeManifests ctx fragments assets).2.names = assets.names ∧
    (∀ name, (mergeManifests ctx fragments assets).2[name]? ≠ assets[name]? →
      ∃ component text, name = component ++ ctx.manifestExtension ∧
        MergesTo ctx fragments assets component (.ok (some text))) ∧
    (∀ component text, MergesTo ctx fragments assets component (.ok (some text)) →
      (mergeManifests ctx fragments assets).2[component ++ ctx.manifestExtension]? =
        some text.toUTF8) ∧
    (∀ component ds, MergesTo ctx fragments assets component (.error ds) →
      (mergeManifests ctx fragments assets).2[component ++ ctx.manifestExtension]? =
        assets[component ++ ctx.manifestExtension]?) ∧
    (∃ failed : List (String × List Diagnostic),
      failed.Pairwise (fun p q => Text.bytes (p.1 ++ ctx.templateExtension) <
        Text.bytes (q.1 ++ ctx.templateExtension)) ∧
      (∀ component ds, (component, ds) ∈ failed ↔
        MergesTo ctx fragments assets component (.error ds)) ∧
      (mergeManifests ctx fragments assets).1 = failed.flatMap Prod.snd) ∧
    ∀ order : List String, order.Nodup →
      (∀ component, component ∈ order ↔ component ++ ctx.templateExtension ∈ assets) →
      order.foldl (mergeOne ctx fragments) assets = (mergeManifests ctx fragments assets).2 := by
  refine ⟨AssetTable.names_rewrite assets _, fun name hname => ?_,
    fun component text => getElem?_mergeManifests_of_mergesTo, fun component ds hfails => ?_,
    ?_, fun order => foldl_mergeOne_eq⟩
  · by_contra hnone
    refine hname (getElem?_mergeManifests_eq_self fun component text hcomponent hmerges => ?_)
    exact hnone ⟨component, text, hcomponent, hmerges⟩
  · refine getElem?_mergeManifests_eq_self fun other text hother hmerges => ?_
    obtain rfl := (String.append_left_inj _).1 hother
    cases hfails.unique hmerges
  · exact ⟨failures ctx fragments assets, failures_pairwise ctx fragments assets,
      fun component ds => mem_failures_iff, reports_eq_flatMap ctx fragments assets⟩

/-- A page that uses a chart of another subpackage, and one with a manifest
that cannot be read. -/
def brokenManifest : AssetTable :=
  .ofList [("subA/broken.json", "\x7b".toUTF8), ("subA/broken.wxml", "<view/>".toUTF8),
    ("subA/page.json", "\x7b\"usingComponents\": \x7b\"chart\": \"/subB/chart\"\x7d\x7d".toUTF8),
    ("subA/page.wxml", "<chart/>".toUTF8)]

/-- The manifest of the first page gets its placeholder, and the other one
stays. -/
theorem page_merged_beside_broken :
    ∃ text ds, MergesTo twoSubpackages ∅ brokenManifest "subA/page" (.ok (some text)) ∧
      MergesTo twoSubpackages ∅ brokenManifest "subA/broken" (.error ds) ∧
      (mergeManifests twoSubpackages ∅ brokenManifest).2["subA/page.json"]? = some text.toUTF8 ∧
      (mergeManifests twoSubpackages ∅ brokenManifest).2["subA/broken.json"]? =
        brokenManifest["subA/broken.json"]? := by
  have hpage : MergesTo twoSubpackages ∅ brokenManifest "subA/page" (.ok (some (Value.object
      [("usingComponents", .object [("chart", .string "/subB/chart")]),
        ("componentPlaceholder", .object [("chart", .string "view")])]).pretty)) :=
    mergesTo_iff.2 (by decide +kernel)
  have hbroken : MergesTo twoSubpackages ∅ brokenManifest "subA/broken" (.error [unusable
      "subA/broken" ("Failed to parse the manifest of component \"subA/broken\": "
        ++ Document.syntaxNotice)]) :=
    mergesTo_iff.2 (by decide +kernel)
  obtain ⟨-, -, hmerged, hkept, -⟩ := mergeManifests_separately twoSubpackages ∅ brokenManifest
  exact ⟨_, _, hpage, hbroken, hmerged _ _ hpage, hkept _ _ hbroken⟩

end ComponentManifest

end SplitBuild
