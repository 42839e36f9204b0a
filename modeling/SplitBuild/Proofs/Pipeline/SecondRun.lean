import SplitBuild.Proofs.Pipeline.Stages
import SplitBuild.Proofs.Pipeline.Turns
/-!
# A second run

The stages of a run come in their order, so that each of them is done with
the table that the run leaves: its own run settles it and no later stage
brings anything back. **A second run finds nothing to report and changes
nothing** (`run_run`), whatever stages are switched off.
-/

namespace SplitBuild

open Json

namespace Pipeline

variable {ctx : Context} {input : StageInput} {assets : AssetTable}
variable {s : Stage} {stages : List Stage}

/-- The values that a run of some stages writes into the assets. -/
def written (ctx : Context) (input : StageInput) : List Stage → AssetTable → List Value
  | [], _ => []
  | s :: rest, assets =>
    s.written ctx input assets ++ written ctx input rest (s.run ctx input assets).2

/-! ## Runs that succeed -/

/-- The first stage of a run that succeeds reports nothing, and the other
stages run on what it leaves. -/
theorem runStages_cons_of_success (h : (runStages ctx input (s :: stages) assets).1.isSuccess) :
    (s.run ctx input assets).1 = [] ∧
      runStages ctx input (s :: stages) assets =
        ((runStages ctx input stages (s.run ctx input assets).2).1.after s,
          (runStages ctx input stages (s.run ctx input assets).2).2) := by
  by_cases hs : (s.run ctx input assets).1 = []
  · exact ⟨hs, runStages_cons_of_quiet hs⟩
  · rw [runStages_cons_of_reports hs] at h
    exact absurd (List.isEmpty_iff.1 h) hs

/-- The other stages succeed as well. -/
theorem success_of_cons (h : (runStages ctx input (s :: stages) assets).1.isSuccess) :
    (runStages ctx input stages (s.run ctx input assets).2).1.isSuccess := by
  rw [(runStages_cons_of_success h).2] at h
  exact h

/-- A run that succeeds runs all its stages. -/
theorem report_of_success (h : (runStages ctx input stages assets).1.isSuccess) :
    (runStages ctx input stages assets).1 = ⟨stages, none, []⟩ := by
  induction stages generalizing assets with
  | nil => rfl
  | cons s rest ih =>
    rw [(runStages_cons_of_success h).2, ih (success_of_cons h)]
    rfl

/-- A run of stages that are done changes nothing. -/
theorem runStages_of_done (h : ∀ s ∈ stages, s.Done ctx input assets) :
    runStages ctx input stages assets = (⟨stages, none, []⟩, assets) := by
  induction stages with
  | nil => rfl
  | cons s rest ih =>
    have hfirst : s.run ctx input assets = ([], assets) :=
      Stage.run_of_done (h s List.mem_cons_self)
    have hrest := ih fun t ht => h t (List.mem_cons_of_mem s ht)
    simp only [runStages, hfirst, hrest]
    rfl

/-! ## Stages that are done -/

/-- What was done before the first of some later stages is done after the
last. -/
theorem done_of_runStages_later (hctx : ctx.UsualNames)
    (hfragments : input.fragments.BringsInNothing)
    (hback : ∀ v ∈ written ctx input stages assets, v.ReadsBack)
    (hsuccess : (runStages ctx input stages assets).1.isSuccess)
    (hlater : ∀ t ∈ stages, s.Before t) (h : s.Done ctx input assets) :
    s.Done ctx input (runStages ctx input stages assets).2 := by
  induction stages generalizing assets with
  | nil => exact h
  | cons t rest ih =>
    rw [written, List.forall_mem_append] at hback
    have hnext : s.Done ctx input (t.run ctx input assets).2 :=
      Stage.done_of_later hctx hfragments hback.1 (hlater t List.mem_cons_self) h
    rw [(runStages_cons_of_success hsuccess).2]
    exact ih hback.2 (success_of_cons hsuccess) (fun u hu => hlater u (List.mem_cons_of_mem t hu))
      hnext

/-- **After a run that succeeds every stage is done.** -/
theorem done_of_runStages (hctx : ctx.UsualNames)
    (hfragments : input.fragments.BringsInNothing)
    (hback : ∀ v ∈ written ctx input stages assets, v.ReadsBack)
    (hsuccess : (runStages ctx input stages assets).1.isSuccess)
    (horder : stages.Pairwise Stage.Before) :
    ∀ s ∈ stages, s.Done ctx input (runStages ctx input stages assets).2 := by
  induction stages generalizing assets with
  | nil => exact fun s hs => absurd hs List.not_mem_nil
  | cons t rest ih =>
    rw [written, List.forall_mem_append] at hback
    obtain ⟨hlater, horder⟩ := List.pairwise_cons.1 horder
    obtain ⟨hquiet, hrun⟩ := runStages_cons_of_success hsuccess
    have hrest := success_of_cons hsuccess
    rw [hrun]
    intro s hs
    rcases List.mem_cons.1 hs with rfl | hs
    -- the first stage is done once it has run, and the others keep it so
    · exact done_of_runStages_later hctx hfragments hback.2 hrest hlater
        (Stage.done_of_run hfragments hback.1 hquiet)
    · exact ih hback.2 hrest horder s hs

/-- A pipeline keeps the stages in their order. -/
theorem pairwise_before_stages (p : Pipeline) : p.stages.Pairwise Stage.Before :=
  Stage.pairwise_before_all.filter p.enabled

/-! ## Running twice -/

/-- **A second run changes nothing.** Where the fragments bring in no
component and what the first run writes is read back, a run that succeeds
can be repeated: the same stages run, nothing is reported, and every asset
stays as it is. -/
theorem run_run (project : Project) (routing : Routing) (options : Options) (p : Pipeline)
    (input : StageInput) (assets : AssetTable)
    (hfragments : input.fragments.BringsInNothing)
    (hback : ∀ v ∈ written (project.context routing options) input p.stages assets, v.ReadsBack)
    (hsuccess : (p.run (project.context routing options) input assets).1.isSuccess) :
    p.run (project.context routing options) input
        (p.run (project.context routing options) input assets).2 =
      p.run (project.context routing options) input assets := by
  have hdone := done_of_runStages (usualNames_context project routing options) hfragments hback
    hsuccess p.pairwise_before_stages
  have hreport := report_of_success hsuccess
  have hagain := runStages_of_done hdone
  exact hagain.trans (Prod.ext hreport.symm rfl)

/-! A program whose root page shows a chart of a subpackage without pages and
loads it by a script. The root manifest is the manifest of that page: the
chart gets its placeholder there before the options drop it. -/

def chartRouting : Routing := ⟨[], [.ofRoot "subA"], []⟩

def chartOptions : Options := { Options.default with deleteComponents := ["chart"] }

/-- A text stands for the chart until it is there. -/
def chartInput : StageInput := ⟨⟨[]⟩, (∅ : FragmentTable).insert "app" ⟨[], [("chart", "text")]⟩⟩

/-- What the bundler emitted. -/
def chartAssets : AssetTable :=
  .ofList [
    ("app.js", "load(__subpack_require_async__(\"subA/chart\"))".toUTF8),
    ("app.json", "\x7b\"usingComponents\": \x7b\"chart\": \"/subA/chart\"\x7d\x7d".toUTF8),
    ("app.wxml", "<chart/>".toUTF8),
    ("subA/chart.wxml", "<view/>".toUTF8)]

def chartContext : Context := (Project.ofRoot ⟨"charts"⟩).context chartRouting chartOptions

/-- Its build can be repeated. -/
theorem chart_built_again :
    (default.run chartContext chartInput chartAssets).1.isSuccess ∧
      default.run chartContext chartInput (default.run chartContext chartInput chartAssets).2 =
        default.run chartContext chartInput chartAssets := by
  have hfragments : chartInput.fragments.BringsInNothing := by
    intro component fragment hfragment
    rw [chartInput, Std.ExtTreeMap.getElem?_insert] at hfragment
    split at hfragment
    · obtain rfl := Option.some.inj hfragment
      rfl
    · simp at hfragment
  obtain ⟨hsuccess, hback⟩ : (default.run chartContext chartInput chartAssets).1.isSuccess ∧
      ∀ v ∈ written chartContext chartInput default.stages chartAssets, v.ReadsBack := by
    decide +kernel
  exact ⟨hsuccess, run_run (Project.ofRoot ⟨"charts"⟩) chartRouting chartOptions default chartInput
    chartAssets hfragments hback hsuccess⟩

end Pipeline

end SplitBuild
