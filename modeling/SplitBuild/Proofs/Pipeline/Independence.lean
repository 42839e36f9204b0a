import SplitBuild.Proofs.Pipeline.Stages
/-!
# Stages in any order

Three stages change assets. What one of them does is settled by the names
of all assets and by the contents of those in its `Footprint`, and it
changes no other (`run_fst_congr`, `getElem?_run_of_not_footprint`). In a
build with the usual names no asset is in two footprints unless the root
manifest is the manifest of an emitted component (`eq_of_footprint`). So
the three stages can run in any order: each reports what it would report
alone, and the assets come out the same (`independent_of_project`).
-/

namespace SplitBuild

open Json

variable {ctx : Context} {input : StageInput} {assets assets' : AssetTable} {s t : Stage}
variable {name : String}

/-! ## Tables that agree -/

namespace AssetTable

/-- Two tables have the same names, and the same contents under some of
them. -/
structure AgreeOn (among : String → Prop) (assets assets' : AssetTable) : Prop where
  names_eq : assets.names = assets'.names
  getElem?_eq : ∀ name, among name → assets[name]? = assets'[name]?

theorem AgreeOn.refl (among : String → Prop) (assets : AssetTable) : AgreeOn among assets assets :=
  ⟨rfl, fun _ _ => rfl⟩

theorem AgreeOn.trans {among : String → Prop} {assets'' : AssetTable}
    (h : AgreeOn among assets assets') (h' : AgreeOn among assets' assets'') :
    AgreeOn among assets assets'' :=
  ⟨h.names_eq.trans h'.names_eq,
    fun name hname => (h.getElem?_eq name hname).trans (h'.getElem?_eq name hname)⟩

theorem AgreeOn.source?_eq {among : String → Prop} (h : AgreeOn among assets assets')
    (hname : among name) : assets.source? name = assets'.source? name := by
  rw [source?, source?, h.getElem?_eq name hname]

end AssetTable

/-! ## What a stage reads and changes -/

namespace Stage

/-- The stages that change assets. -/
def rewriting : List Stage := [rewriteAsyncLoads, mergeComponentManifests, patchAppManifest]

/-- The assets whose contents a stage reads or changes. -/
def Footprint (s : Stage) (ctx : Context) (assets : AssetTable) (name : String) : Prop :=
  match s with
  | validateBundles => False
  | checkStylesheetRuntime => name = RuntimeBundle.assetName ctx
  | rewriteAsyncLoads => ∃ stem, name = stem ++ ctx.scriptExtension
  | mergeComponentManifests =>
    ∃ component, name = component ++ ctx.manifestExtension ∧
      ComponentManifest.isEmitted ctx assets component
  | patchAppManifest => name = ctx.appManifest

theorem footprint_congr (h : assets.names = assets'.names) :
    s.Footprint ctx assets = s.Footprint ctx assets' := by
  funext name
  cases s with
  | mergeComponentManifests => simp only [Footprint, ComponentManifest.isEmitted_congr h]
  | _ => rfl

/-- What becomes of an asset does not depend on the contents of others. -/
theorem rewritten?_congr (h : assets.names = assets'.names) :
    s.rewritten? ctx input assets = s.rewritten? ctx input assets' := by
  funext name source
  cases s with
  | validateBundles => rfl
  | checkStylesheetRuntime => rfl
  | rewriteAsyncLoads => rfl
  | mergeComponentManifests => simp only [rewritten?, ComponentManifest.rewritten?_congr h]
  | patchAppManifest => simp only [rewritten?, h]

theorem footprint_of_rewritten? {source text : String}
    (h : s.rewritten? ctx input assets name source = some text) : s.Footprint ctx assets name := by
  cases s with
  | validateBundles => cases h
  | checkStylesheetRuntime => cases h
  | rewriteAsyncLoads =>
    by_contra hno
    have hscript : ¬ Script.isScript ctx name := by
      intro hscript
      obtain ⟨stem, hstem⟩ := Option.isSome_iff_exists.1 hscript
      exact hno ⟨stem, Path.stem?_eq_some_iff.1 hstem⟩
    have hsome := Script.rewritten?_eq_some_iff.1 h
    rw [Script.outcome_of_not_isScript hscript] at hsome
    cases hsome
  | mergeComponentManifests =>
    obtain ⟨component, hname, hemitted, -⟩ := ComponentManifest.rewritten?_eq_some_iff.1 h
    exact ⟨component, hname, hemitted⟩
  | patchAppManifest => exact (RootManifest.patched_of_rewritten? h).1

theorem rewritten?_eq_none_of_not_footprint (h : ¬ s.Footprint ctx assets name) (source : String) :
    s.rewritten? ctx input assets name source = none :=
  Option.eq_none_iff_forall_ne_some.2 fun _ hsome => h (footprint_of_rewritten? hsome)

/-- A stage adds no asset and removes none. -/
theorem names_run (s : Stage) (ctx : Context) (input : StageInput) (assets : AssetTable) :
    (s.run ctx input assets).2.names = assets.names := by
  rw [run_snd, AssetTable.names_rewrite]

/-- **A stage changes nothing outside its footprint.** -/
theorem getElem?_run_of_not_footprint (h : ¬ s.Footprint ctx assets name) :
    (s.run ctx input assets).2[name]? = assets[name]? := by
  rw [run_snd]
  exact AssetTable.getElem?_rewrite_of_none (rewritten?_eq_none_of_not_footprint h)

/-- **What a stage reports depends on its footprint alone.** -/
theorem run_fst_congr (h : AssetTable.AgreeOn (s.Footprint ctx assets) assets assets') :
    (s.run ctx input assets).1 = (s.run ctx input assets').1 := by
  cases s with
  | validateBundles => rfl
  | checkStylesheetRuntime =>
    have hsource : assets.source? (RuntimeBundle.assetName ctx) =
        assets'.source? (RuntimeBundle.assetName ctx) := h.source?_eq rfl
    simp only [run, RuntimeBundle.checkStylesheets, hsource]
  | rewriteAsyncLoads =>
    simp only [run, Script.resolveLoads, Script.leftovers, h.names_eq]
    refine List.filterMap_congr fun name _ => ?_
    by_cases hscript : Script.isScript ctx name
    · obtain ⟨stem, hstem⟩ := Option.isSome_iff_exists.1 hscript
      rw [h.source?_eq ⟨stem, Path.stem?_eq_some_iff.1 hstem⟩]
    · -- what is no script is left alone, whatever it holds
      have hout : Script.outcome ctx name = fun _ => .untouched :=
        funext fun _ => Script.outcome_of_not_isScript hscript
      rw [hout]
      cases assets.source? name <;> cases assets'.source? name <;> rfl
  | mergeComponentManifests =>
    have hcomponents : ComponentManifest.emittedComponents ctx assets =
        ComponentManifest.emittedComponents ctx assets' := by
      rw [ComponentManifest.emittedComponents, ComponentManifest.emittedComponents, h.names_eq]
    simp only [run, ComponentManifest.mergeManifests, ComponentManifest.reports, ← hcomponents,
      ← ComponentManifest.mergeEmitted_congr h.names_eq]
    refine List.flatMap_congr fun component hcomponent => ?_
    have hemitted := ComponentManifest.mem_emittedComponents_iff.1 hcomponent
    rw [h.source?_eq ⟨component, rfl, hemitted⟩]
  | patchAppManifest => rfl

/-- So does whether the root manifest changes. -/
theorem changes_congr (h : AssetTable.AgreeOn (patchAppManifest.Footprint ctx assets) assets assets') :
    RootManifest.changes ctx assets = RootManifest.changes ctx assets' := by
  rw [RootManifest.changes, RootManifest.changes, h.source?_eq rfl, h.names_eq]

/-! ## Footprints are disjoint -/

/-- A script is no manifest. -/
theorem not_footprint_rewriteAsyncLoads (hctx : ctx.UsualNames) (stem : String) :
    ¬ rewriteAsyncLoads.Footprint ctx assets (stem ++ ".json") := by
  rintro ⟨other, hother⟩
  have hscript : Script.isScript ctx (stem ++ ".json") :=
    Option.isSome_iff_exists.2 ⟨other, Path.stem?_eq_some_iff.2 hother⟩
  exact not_isScript_manifest hctx hscript

/-- Loads and manifests are not in the same assets. -/
theorem eq_rewriteAsyncLoads_of_footprint (hctx : ctx.UsualNames) (ht : t ∈ rewriting)
    (hname : rewriteAsyncLoads.Footprint ctx assets name) (htname : t.Footprint ctx assets name) :
    t = rewriteAsyncLoads := by
  cases t with
  | rewriteAsyncLoads => rfl
  | mergeComponentManifests =>
    obtain ⟨component, rfl, -⟩ := htname
    rw [hctx.manifest] at hname
    exact absurd hname (not_footprint_rewriteAsyncLoads hctx component)
  | patchAppManifest =>
    have hroot : name = "app" ++ ".json" := htname.trans hctx.app
    rw [hroot] at hname
    exact absurd hname (not_footprint_rewriteAsyncLoads hctx "app")
  | _ => simp [rewriting] at ht

/-- The root manifest is that of no component. -/
theorem not_footprint_of_merged (hctx : ctx.UsualNames)
    (hroot : ¬ ComponentManifest.isEmitted ctx assets "app")
    (h : mergeComponentManifests.Footprint ctx assets name) :
    ¬ patchAppManifest.Footprint ctx assets name := by
  intro hpatched
  obtain ⟨component, hname, hemitted⟩ := h
  have happ : name = "app" ++ ".json" := hpatched.trans hctx.app
  rw [hctx.manifest, happ, String.append_left_inj] at hname
  rw [← hname] at hemitted
  exact hroot hemitted

/-- **An asset is in one footprint only**, where the root manifest is not the
manifest of an emitted component. -/
theorem eq_of_footprint (hctx : ctx.UsualNames)
    (hroot : ¬ ComponentManifest.isEmitted ctx assets "app") (hs : s ∈ rewriting)
    (ht : t ∈ rewriting) (hsname : s.Footprint ctx assets name)
    (htname : t.Footprint ctx assets name) : s = t := by
  cases s with
  | rewriteAsyncLoads => exact (eq_rewriteAsyncLoads_of_footprint hctx ht hsname htname).symm
  | mergeComponentManifests =>
    cases t with
    | rewriteAsyncLoads => exact eq_rewriteAsyncLoads_of_footprint hctx hs htname hsname
    | mergeComponentManifests => rfl
    | patchAppManifest => exact absurd htname (not_footprint_of_merged hctx hroot hsname)
    | _ => simp [rewriting] at ht
  | patchAppManifest =>
    cases t with
    | rewriteAsyncLoads => exact eq_rewriteAsyncLoads_of_footprint hctx hs htname hsname
    | mergeComponentManifests => exact absurd hsname (not_footprint_of_merged hctx hroot htname)
    | patchAppManifest => rfl
    | _ => simp [rewriting] at ht
  | _ => simp [rewriting] at hs

theorem not_footprint_of_ne (hctx : ctx.UsualNames)
    (hroot : ¬ ComponentManifest.isEmitted ctx assets "app") (hs : s ∈ rewriting)
    (ht : t ∈ rewriting) (hne : s ≠ t) (hname : s.Footprint ctx assets name) :
    ¬ t.Footprint ctx assets name :=
  fun htname => hne (eq_of_footprint hctx hroot hs ht hname htname)

/-! ## Any order -/

/-- A stage leaves the footprint of another as it is. -/
theorem agreeOn_run (hctx : ctx.UsualNames)
    (hroot : ¬ ComponentManifest.isEmitted ctx assets "app") (hs : s ∈ rewriting)
    (ht : t ∈ rewriting) (hne : s ≠ t) :
    AssetTable.AgreeOn (s.Footprint ctx assets) assets (t.run ctx input assets).2 := by
  refine ⟨(names_run t ctx input assets).symm, fun name hname => ?_⟩
  have hout : ¬ t.Footprint ctx assets name := not_footprint_of_ne hctx hroot hs ht hne hname
  exact (getElem?_run_of_not_footprint hout).symm

/-- **Two stages can be exchanged.** -/
theorem run_comm (hctx : ctx.UsualNames)
    (hroot : ¬ ComponentManifest.isEmitted ctx assets "app") (hs : s ∈ rewriting)
    (ht : t ∈ rewriting) :
    (t.run ctx input (s.run ctx input assets).2).2 =
      (s.run ctx input (t.run ctx input assets).2).2 := by
  by_cases hst : s = t
  · rw [hst]
  · have hafter : ∀ u v : Stage, (v.run ctx input (u.run ctx input assets).2).2 =
        (assets.rewrite (u.rewritten? ctx input assets)).rewrite (v.rewritten? ctx input assets) := by
      intro u v
      rw [run_snd v, rewritten?_congr (names_run u ctx input assets), run_snd u]
    rw [hafter s t, hafter t s]
    refine AssetTable.rewrite_comm fun name => ?_
    by_cases hname : s.Footprint ctx assets name
    · have hout : ¬ t.Footprint ctx assets name := not_footprint_of_ne hctx hroot hs ht hst hname
      exact .inr (rewritten?_eq_none_of_not_footprint hout)
    · exact .inl (rewritten?_eq_none_of_not_footprint hname)

/-- What stages make of the assets one after the other, whatever they
report. -/
def runAll (ctx : Context) (input : StageInput) (order : List Stage) (assets : AssetTable) :
    AssetTable :=
  order.foldl (fun table s => (s.run ctx input table).2) assets

@[simp] theorem runAll_cons {order : List Stage} :
    runAll ctx input (s :: order) assets = runAll ctx input order (s.run ctx input assets).2 := rfl

/-- A stage run before does not make the root manifest that of a component. -/
theorem not_isEmitted_run (hroot : ¬ ComponentManifest.isEmitted ctx assets "app") (s : Stage) :
    ¬ ComponentManifest.isEmitted ctx (s.run ctx input assets).2 "app" := by
  rw [ComponentManifest.isEmitted_congr (names_run s ctx input assets)]
  exact hroot

/-- **Stages run in any order leave the same assets.** -/
theorem runAll_perm (hctx : ctx.UsualNames) {order order' : List Stage} (h : order.Perm order')
    (hmem : ∀ s ∈ order, s ∈ rewriting) (hroot : ¬ ComponentManifest.isEmitted ctx assets "app") :
    runAll ctx input order assets = runAll ctx input order' assets := by
  induction h generalizing assets with
  | nil => rfl
  | cons s _ ih =>
    exact ih (fun t ht => hmem t (List.mem_cons_of_mem s ht)) (not_isEmitted_run hroot s)
  | swap s t rest =>
    have hs : s ∈ rewriting := hmem s (List.mem_cons_of_mem t List.mem_cons_self)
    have ht : t ∈ rewriting := hmem t List.mem_cons_self
    simp only [runAll_cons, run_comm hctx hroot hs ht]
  | trans h _ ih ih' =>
    exact (ih hmem hroot).trans (ih' (fun s hs => hmem s (h.mem_iff.2 hs)) hroot)

/-- The stages run before another leave its footprint as it was. -/
theorem agreeOn_runAll (hctx : ctx.UsualNames) {before : List Stage} (hs : s ∈ rewriting)
    (hmem : ∀ t ∈ before, t ∈ rewriting) (hne : s ∉ before)
    (hroot : ¬ ComponentManifest.isEmitted ctx assets "app") :
    AssetTable.AgreeOn (s.Footprint ctx assets) assets (runAll ctx input before assets) := by
  induction before generalizing assets with
  | nil => exact .refl _ assets
  | cons t rest ih =>
    rw [List.mem_cons, not_or] at hne
    obtain ⟨hts, hrest⟩ := hne
    have hstep : AssetTable.AgreeOn (s.Footprint ctx assets) assets (t.run ctx input assets).2 :=
      agreeOn_run hctx hroot hs (hmem t List.mem_cons_self) hts
    have hroot' : ¬ ComponentManifest.isEmitted ctx (t.run ctx input assets).2 "app" :=
      not_isEmitted_run hroot t
    have hlater := ih (fun u hu => hmem u (List.mem_cons_of_mem t hu)) hrest hroot'
    rw [footprint_congr (names_run t ctx input assets)] at hlater
    exact hstep.trans hlater

/-- The stages before one of them in an order of all. -/
theorem mem_and_not_mem_of_perm {before after : List Stage}
    (h : (before ++ s :: after).Perm rewriting) :
    s ∈ rewriting ∧ (∀ t ∈ before, t ∈ rewriting) ∧ s ∉ before := by
  have hnodup : (before ++ s :: after).Nodup := h.nodup_iff.2 (by decide)
  refine ⟨h.mem_iff.1 (List.mem_append_right _ List.mem_cons_self),
    fun t ht => h.mem_iff.1 (List.mem_append_left _ ht), fun hs => ?_⟩
  exact List.disjoint_of_nodup_append hnodup hs List.mem_cons_self

/-- What the stages do to some assets does not depend on their order. -/
structure Independent (ctx : Context) (input : StageInput) (assets : AssetTable) : Prop where
  /-- Every order of the stages leaves the same assets. -/
  assets_eq : ∀ order : List Stage, order.Perm rewriting →
    runAll ctx input order assets = runAll ctx input rewriting assets
  /-- A stage reports after any others what it reports before them. -/
  reports_eq : ∀ before s after, (before ++ s :: after).Perm rewriting →
    (s.run ctx input (runAll ctx input before assets)).1 = (s.run ctx input assets).1
  /-- The root manifest changes after any others if it changes before them. -/
  changes_eq : ∀ before after, (before ++ patchAppManifest :: after).Perm rewriting →
    RootManifest.changes ctx (runAll ctx input before assets) = RootManifest.changes ctx assets

theorem independent (hctx : ctx.UsualNames)
    (hroot : ¬ ComponentManifest.isEmitted ctx assets "app") : Independent ctx input assets where
  assets_eq _ h := runAll_perm hctx h (fun _ hs => h.mem_iff.1 hs) hroot
  reports_eq before s after h := by
    obtain ⟨hs, hmem, hne⟩ := mem_and_not_mem_of_perm h
    exact (run_fst_congr (agreeOn_runAll hctx hs hmem hne hroot)).symm
  changes_eq before after h := by
    obtain ⟨hs, hmem, hne⟩ := mem_and_not_mem_of_perm h
    exact (changes_congr (agreeOn_runAll hctx hs hmem hne hroot)).symm

/-- Each stage changes assets of its own kind, and the names stay. -/
structure KeepsToItsOwn (ctx : Context) (input : StageInput) (assets : AssetTable) : Prop where
  names_eq : ∀ s ∈ rewriting, (s.run ctx input assets).2.names = assets.names
  of_rewriteAsyncLoads : ∀ name,
    (rewriteAsyncLoads.run ctx input assets).2[name]? ≠ assets[name]? → ∃ stem, name = stem ++ ".js"
  of_mergeComponentManifests : ∀ name,
    (mergeComponentManifests.run ctx input assets).2[name]? ≠ assets[name]? →
      ∃ component, name = component ++ ".json" ∧ component ++ ".wxml" ∈ assets
  of_patchAppManifest : ∀ name,
    (patchAppManifest.run ctx input assets).2[name]? ≠ assets[name]? → name = "app.json"

/-- An asset that a stage changes is in its footprint. -/
theorem footprint_of_changed (h : (s.run ctx input assets).2[name]? ≠ assets[name]?) :
    s.Footprint ctx assets name :=
  Classical.byContradiction fun hout => h (getElem?_run_of_not_footprint hout)

theorem keepsToItsOwn (project : Project) (routing : Routing) (options : Options)
    (input : StageInput) (assets : AssetTable) :
    KeepsToItsOwn (project.context routing options) input assets where
  names_eq s _ := names_run s _ input assets
  of_rewriteAsyncLoads _ h := footprint_of_changed h
  of_mergeComponentManifests _ h := by
    obtain ⟨component, hname, hemitted⟩ := footprint_of_changed h
    exact ⟨component, hname, hemitted⟩
  of_patchAppManifest _ h := footprint_of_changed h

/-- **The stages that change assets are independent of each other.** In a
build of a project without a root template they can run in any order: the
assets come out the same, and each stage reports the same. Each keeps to
its own assets, whatever the others did. -/
theorem independent_of_project (project : Project) (routing : Routing) (options : Options)
    (input : StageInput) (assets : AssetTable) (hroot : "app.wxml" ∉ assets) :
    Independent (project.context routing options) input assets ∧
      ∀ table, KeepsToItsOwn (project.context routing options) input table := by
  have hctx := usualNames_context project routing options
  have happ : ¬ ComponentManifest.isEmitted (project.context routing options) assets "app" := hroot
  exact ⟨independent hctx happ, keepsToItsOwn project routing options input⟩

/-! A page that shows a chart of a subpackage and loads it by a script. -/

def pageRouting : Routing := ⟨[], [.ofRoot "subA"], []⟩

def pageInput : StageInput := ⟨⟨[]⟩, (∅ : FragmentTable).insert "page" ⟨[], [("chart", "text")]⟩⟩

def pageAssets : AssetTable :=
  .ofList [
    ("app.json", "\x7b\"pages\": [\"page\"]\x7d".toUTF8),
    ("page.js", "load(__subpack_require_async__(\"subA/chart\"))".toUTF8),
    ("page.json", "\x7b\"usingComponents\": \x7b\"chart\": \"/subA/chart\"\x7d\x7d".toUTF8),
    ("page.wxml", "<chart/>".toUTF8),
    ("subA/chart.wxml", "<view/>".toUTF8)]

/-- Its stages can run from the last to the first. -/
theorem page_built_backwards :
    "app.wxml" ∉ pageAssets ∧
      runAll ((Project.ofRoot ⟨"charts"⟩).context pageRouting .default) pageInput
          [patchAppManifest, mergeComponentManifests, rewriteAsyncLoads] pageAssets =
        runAll ((Project.ofRoot ⟨"charts"⟩).context pageRouting .default) pageInput rewriting
          pageAssets := by
  have hroot : "app.wxml" ∉ pageAssets := by simp [pageAssets, AssetTable.ofList]
  have hindependent := independent_of_project (Project.ofRoot ⟨"charts"⟩) pageRouting .default
    pageInput pageAssets hroot
  exact ⟨hroot, hindependent.1.assets_eq _ (List.reverse_perm rewriting)⟩

end Stage

end SplitBuild
