import SplitBuild.Pipeline
import SplitBuild.Project
import SplitBuild.Proofs.Manifest.Assets
import SplitBuild.Proofs.Script.Lookup
import SplitBuild.Proofs.Script.Resolution
/-!
# What a stage leaves to do

A stage is `Done` with a table when it has nothing to report and nothing to
change there. A run of a stage that reports nothing leaves a table that the
stage is done with (`done_of_run`), and **what an earlier stage is done
with, a later one does not undo** (`done_of_later`): only the resolution of
loads changes scripts, and it brings in no lookup; a patch of the root
manifest keeps what was merged.
-/

namespace SplitBuild

open Json

variable {ctx : Context} {input : StageInput} {assets : AssetTable} {s t : Stage}
variable {name source text : String}

/-- The extensions of what the bundler emits are the usual ones, and so is the
name of the root manifest. -/
structure Context.UsualNames (ctx : Context) : Prop where
  script : ctx.scriptExtension = ".js"
  manifest : ctx.manifestExtension = ".json"
  app : ctx.appManifest = "app.json"

theorem usualNames_context (project : Project) (routing : Routing) (options : Options) :
    (project.context routing options).UsualNames := ⟨rfl, rfl, rfl⟩

namespace Stage

/-- The values that a stage writes into the assets. -/
def written (s : Stage) (ctx : Context) (input : StageInput) (assets : AssetTable) : List Value :=
  match s with
  | mergeComponentManifests => ComponentManifest.written ctx input.fragments assets
  | patchAppManifest => RootManifest.written ctx assets
  | _ => []

/-! ## What is left to do -/

/-- A stage has nothing to report on a table and nothing to change there. -/
def Done (s : Stage) (ctx : Context) (input : StageInput) (assets : AssetTable) : Prop :=
  match s with
  | validateBundles => input.bundles.validate ctx = []
  | checkStylesheetRuntime => RuntimeBundle.checkStylesheets ctx assets = []
  | rewriteAsyncLoads => Script.AllResolved ctx assets
  | mergeComponentManifests => ComponentManifest.AllMerged ctx input.fragments assets
  | patchAppManifest => RootManifest.IsPatched ctx assets

/-- The new text that a stage gives an asset. -/
def rewritten? (s : Stage) (ctx : Context) (input : StageInput) (assets : AssetTable) :
    String → String → Option String :=
  match s with
  | validateBundles => fun _ _ => none
  | checkStylesheetRuntime => fun _ _ => none
  | rewriteAsyncLoads => Script.rewritten? ctx
  | mergeComponentManifests => ComponentManifest.rewritten? ctx input.fragments assets
  | patchAppManifest => RootManifest.rewritten? ctx assets.names

theorem run_snd (s : Stage) (ctx : Context) (input : StageInput) (assets : AssetTable) :
    (s.run ctx input assets).2 = assets.rewrite (s.rewritten? ctx input assets) := by
  cases s with
  | validateBundles => exact (AssetTable.rewrite_eq_self fun _ _ _ => rfl).symm
  | checkStylesheetRuntime => exact (AssetTable.rewrite_eq_self fun _ _ _ => rfl).symm
  | rewriteAsyncLoads => rfl
  | mergeComponentManifests => rfl
  | patchAppManifest => rfl

theorem Done.rewritten?_eq_none (h : s.Done ctx input assets)
    (hsource : assets.source? name = some source) :
    s.rewritten? ctx input assets name source = none := by
  cases s with
  | validateBundles => rfl
  | checkStylesheetRuntime => rfl
  | rewriteAsyncLoads => exact Script.AllResolved.rewritten?_eq_none h hsource
  | mergeComponentManifests => exact ComponentManifest.AllMerged.rewritten?_eq_none h hsource
  | patchAppManifest => exact RootManifest.IsPatched.rewritten?_eq_none h hsource

theorem Done.reports_eq_nil (h : s.Done ctx input assets) : (s.run ctx input assets).1 = [] := by
  cases s with
  | validateBundles => exact h
  | checkStylesheetRuntime => exact h
  | rewriteAsyncLoads => exact Script.AllResolved.leftovers_eq_nil h
  | mergeComponentManifests => exact ComponentManifest.AllMerged.reports_eq_nil h
  | patchAppManifest => rfl

/-- **A stage that is done changes nothing.** -/
theorem run_of_done (h : s.Done ctx input assets) : s.run ctx input assets = ([], assets) := by
  refine Prod.ext h.reports_eq_nil ?_
  rw [run_snd]
  exact AssetTable.rewrite_eq_self fun _ _ hsource => h.rewritten?_eq_none hsource

/-! ## What a stage settles -/

/-- **A stage that reports nothing is done with the table it leaves**, where
what it writes is read back. -/
theorem done_of_run (hfragments : input.fragments.BringsInNothing)
    (hback : ∀ v ∈ s.written ctx input assets, v.ReadsBack)
    (h : (s.run ctx input assets).1 = []) : s.Done ctx input (s.run ctx input assets).2 := by
  cases s with
  | validateBundles => exact h
  | checkStylesheetRuntime => exact h
  | rewriteAsyncLoads => exact Script.allResolved_resolveLoads h
  | mergeComponentManifests => exact ComponentManifest.allMerged_mergeManifests hfragments hback h
  | patchAppManifest =>
    exact RootManifest.isPatched_patchAsset fun v hv => (hback v hv).notMisread

/-! ## What later stages keep -/

/-- A stage runs before another. -/
def Before (s t : Stage) : Prop := all.idxOf s < all.idxOf t

instance (s t : Stage) : Decidable (s.Before t) := inferInstanceAs (Decidable (_ < _))

theorem pairwise_before_all : all.Pairwise Before := by decide

/-- An asset is as it was before the stage, or has its new text. -/
theorem source_of_run (h : (s.run ctx input assets).2.source? name = some source) :
    ∃ old, assets.source? name = some old ∧
      (s.rewritten? ctx input assets name old = none ∧ source = old ∨
        s.rewritten? ctx input assets name old = some source) := by
  rw [run_snd] at h
  exact AssetTable.source_of_rewrite h

theorem isScript_runtimeBundle : Script.isScript ctx (RuntimeBundle.assetName ctx) :=
  Option.isSome_iff_exists.2 ⟨ctx.runtimeBundle, Path.stem?_eq_some_iff.2 rfl⟩

theorem not_isScript_manifest (hctx : ctx.UsualNames) {stem : String} :
    ¬ Script.isScript ctx (stem ++ ".json") := by
  intro h
  obtain ⟨other, hother⟩ := Option.isSome_iff_exists.1 h
  rw [Path.stem?_eq_some_iff, hctx.script] at hother
  have hlast := congrArg (fun name => name.toList.getLast?) hother
  simp at hlast

/-- Scripts get a new text only where loads are resolved. -/
theorem eq_rewriteAsyncLoads_of_isScript (hctx : ctx.UsualNames)
    (hscript : Script.isScript ctx name)
    (h : t.rewritten? ctx input assets name source = some text) : t = rewriteAsyncLoads := by
  cases t with
  | validateBundles => cases h
  | checkStylesheetRuntime => cases h
  | rewriteAsyncLoads => rfl
  | mergeComponentManifests =>
    obtain ⟨component, rfl, -⟩ := ComponentManifest.rewritten?_eq_some_iff.1 h
    rw [hctx.manifest] at hscript
    exact absurd hscript (not_isScript_manifest hctx)
  | patchAppManifest =>
    have hname : name = "app" ++ ".json" := (RootManifest.patched_of_rewritten? h).1.trans hctx.app
    rw [hname] at hscript
    exact absurd hscript (not_isScript_manifest hctx)

/-- No stage brings the stylesheet lookup into the runtime bundle. -/
theorem checkStylesheets_run (hctx : ctx.UsualNames)
    (h : RuntimeBundle.checkStylesheets ctx assets = []) :
    RuntimeBundle.checkStylesheets ctx (t.run ctx input assets).2 = [] := by
  refine RuntimeBundle.checkStylesheets_eq_nil_iff.2 fun source hsource => ?_
  obtain ⟨old, hold, ⟨-, rfl⟩ | hnew⟩ := source_of_run hsource
  · exact RuntimeBundle.checkStylesheets_eq_nil_iff.1 h source hold
  · obtain rfl := eq_rewriteAsyncLoads_of_isScript hctx isScript_runtimeBundle hnew
    obtain ⟨-, rfl, -⟩ := Script.of_outcome_resolved (Script.rewritten?_eq_some_iff.1 hnew)
    have hclean := RuntimeBundle.checkStylesheets_eq_nil_iff.1 h old hold
    rw [hctx.script]
    exact Script.not_contains_resolve hclean

/-- The stages after the resolution of loads bring no load back. -/
theorem allResolved_run (hctx : ctx.UsualNames) (ht : t ≠ rewriteAsyncLoads)
    (h : Script.AllResolved ctx assets) : Script.AllResolved ctx (t.run ctx input assets).2 := by
  intro name source hsource
  by_cases hscript : Script.isScript ctx name
  · obtain ⟨old, hold, ⟨-, rfl⟩ | hnew⟩ := source_of_run hsource
    · exact h name source hold
    · exact absurd (eq_rewriteAsyncLoads_of_isScript hctx hscript hnew) ht
  · exact Script.outcome_of_not_isScript hscript

/-- **A later stage leaves done what was done.** -/
theorem done_of_later (hctx : ctx.UsualNames) (hfragments : input.fragments.BringsInNothing)
    (hback : ∀ v ∈ t.written ctx input assets, v.ReadsBack) (hst : s.Before t)
    (h : s.Done ctx input assets) : s.Done ctx input (t.run ctx input assets).2 := by
  cases s with
  | validateBundles => exact h
  | checkStylesheetRuntime => exact checkStylesheets_run hctx h
  | rewriteAsyncLoads =>
    have ht : t ≠ rewriteAsyncLoads := by
      rintro rfl
      exact absurd hst (by decide)
    exact allResolved_run hctx ht h
  | mergeComponentManifests =>
    cases t with
    | patchAppManifest => exact RootManifest.allMerged_patchAsset hfragments hback h
    | _ => exact absurd hst (by decide)
  | patchAppManifest =>
    cases t with
    | _ => exact absurd hst (by decide)

end Stage

end SplitBuild
