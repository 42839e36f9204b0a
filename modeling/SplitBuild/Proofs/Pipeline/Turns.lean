import SplitBuild.Pipeline
import Mathlib.Data.List.Induction
/-!
# Stages in turn

A pipeline is set up by switching stages on and off; what counts for a
stage is how it was set last (`stages_ofSettings`). A run does what the
pipelines of its stages alone do, one after the other, each with what the
one before leaves. It ends with the first that has something to report,
and what was done until then stays (`course_runStages`).
-/

namespace SplitBuild

namespace Pipeline

variable {ctx : Context} {input : StageInput} {assets : AssetTable}
variable {s : Stage} {stages : List Stage} {settings : List (Stage × Bool)}

/-! ## Switches -/

/-- The default pipeline with stages switched on and off in turn. -/
def ofSettings (settings : List (Stage × Bool)) : Pipeline :=
  settings.foldl (fun p setting => p.withStage setting.1 setting.2) default

/-- How a stage was set last. -/
def lastSetting? (settings : List (Stage × Bool)) (s : Stage) : Option Bool :=
  (settings.reverse.find? fun setting => setting.1 = s).map Prod.snd

theorem enabled_ofSettings (settings : List (Stage × Bool)) (s : Stage) :
    (ofSettings settings).enabled s = (lastSetting? settings s).getD true := by
  induction settings using List.reverseRecOn with
  | nil => rfl
  | append_singleton settings setting ih =>
    obtain ⟨t, enabled⟩ := setting
    have hlast : (ofSettings (settings ++ [(t, enabled)])).enabled s =
        if s = t then enabled else (ofSettings settings).enabled s := by
      rw [ofSettings, List.foldl_append]
      rfl
    rw [hlast, lastSetting?, List.reverse_concat, List.find?_cons]
    by_cases hst : s = t
    · simp [hst]
    · simp only [if_neg hst, decide_eq_false (Ne.symm hst)]
      exact ih

/-- **What counts is how a stage was set last.** -/
theorem stages_ofSettings (settings : List (Stage × Bool)) :
    (ofSettings settings).stages =
      Stage.all.filter fun s => (lastSetting? settings s).getD true := by
  rw [stages]
  exact List.filter_congr fun s _ => enabled_ofSettings settings s

/-! ## The first stage -/

/-- After a stage with nothing to report the others run on what it leaves. -/
theorem runStages_cons_of_quiet (h : (s.run ctx input assets).1 = []) :
    runStages ctx input (s :: stages) assets =
      ((runStages ctx input stages (s.run ctx input assets).2).1.after s,
        (runStages ctx input stages (s.run ctx input assets).2).2) := by
  rw [runStages]
  cases hrun : s.run ctx input assets with
  | mk reports next =>
    rw [hrun] at h
    obtain rfl : reports = [] := h
    rfl

/-- A stage with something to report is the last. -/
theorem runStages_cons_of_reports (h : (s.run ctx input assets).1 ≠ []) :
    runStages ctx input (s :: stages) assets =
      (⟨[s], some s, (s.run ctx input assets).1⟩, (s.run ctx input assets).2) := by
  rw [runStages]
  cases hrun : s.run ctx input assets with
  | mk reports next =>
    rw [hrun] at h
    cases reports with
    | nil => exact absurd rfl h
    | cons d ds => rfl

/-! ## One stage alone -/

/-- The pipeline of one stage: every other is switched off. -/
def only (s : Stage) : Pipeline :=
  ofSettings ((Stage.all.filter fun t => t ≠ s).map fun t => (t, false))

theorem stages_only (s : Stage) : (only s).stages = [s] := by cases s <;> rfl

/-- What a stage alone comes to is what it reports and what it makes of the
assets. -/
theorem run_only (s : Stage) (ctx : Context) (input : StageInput) (assets : AssetTable) :
    (only s).run ctx input assets =
      (⟨[s], if (s.run ctx input assets).1 = [] then none else some s, (s.run ctx input assets).1⟩,
        (s.run ctx input assets).2) := by
  rw [run, stages_only]
  by_cases h : (s.run ctx input assets).1 = []
  · rw [runStages_cons_of_quiet h, if_pos h, h]
    rfl
  · rw [runStages_cons_of_reports h, if_neg h]

theorem run_only_snd : ((only s).run ctx input assets).2 = (s.run ctx input assets).2 := by
  rw [run_only]

theorem diagnostics_run_only :
    ((only s).run ctx input assets).1.diagnostics = (s.run ctx input assets).1 := by
  rw [run_only]

/-! ## One after the other -/

/-- What stages make of the assets, each alone and with what the one before
leaves. -/
def inTurn (ctx : Context) (input : StageInput) (stages : List Stage) (assets : AssetTable) :
    AssetTable :=
  stages.foldl (fun table s => ((only s).run ctx input table).2) assets

@[simp] theorem inTurn_nil : inTurn ctx input [] assets = assets := rfl

@[simp] theorem inTurn_cons : inTurn ctx input (s :: stages) assets =
    inTurn ctx input stages (s.run ctx input assets).2 := by
  rw [inTurn, List.foldl_cons, run_only_snd, inTurn]

/-- None of the stages has anything to report in its turn. -/
def Quiet (ctx : Context) (input : StageInput) (stages : List Stage) (assets : AssetTable) : Prop :=
  ∀ before s after, stages = before ++ s :: after →
    ((only s).run ctx input (inTurn ctx input before assets)).1.diagnostics = []

theorem quiet_nil : Quiet ctx input [] assets := fun _ _ _ h => absurd h (by simp)

theorem Quiet.cons (hs : (s.run ctx input assets).1 = [])
    (h : Quiet ctx input stages (s.run ctx input assets).2) :
    Quiet ctx input (s :: stages) assets := by
  intro before t after hsplit
  cases before with
  | nil =>
    obtain ⟨rfl, -⟩ := List.cons.inj hsplit
    rw [inTurn_nil, diagnostics_run_only]
    exact hs
  | cons u before =>
    obtain ⟨rfl, hrest⟩ := List.cons.inj hsplit
    rw [inTurn_cons]
    exact h before t after hrest

/-- What some stages come to. -/
inductive Course (ctx : Context) (input : StageInput) (stages : List Stage) (assets : AssetTable) :
    BuildReport × AssetTable → Prop where
  /-- No stage has anything to report: all of them run. -/
  | through (hquiet : Quiet ctx input stages assets) :
    Course ctx input stages assets (⟨stages, none, []⟩, inTurn ctx input stages assets)
  /-- A stage is the first with something to report: that is the report, and
  none of the stages after it runs. -/
  | halted (before : List Stage) (s : Stage) (after : List Stage) (reports : List Diagnostic)
    (hsplit : stages = before ++ s :: after) (hquiet : Quiet ctx input before assets)
    (hreports : ((only s).run ctx input (inTurn ctx input before assets)).1.diagnostics = reports)
    (hne : reports ≠ []) :
    Course ctx input stages assets
      (⟨before ++ [s], some s, reports⟩, inTurn ctx input (before ++ [s]) assets)

/-- A stage with nothing to report comes in front. -/
theorem Course.cons {result : BuildReport × AssetTable} (hs : (s.run ctx input assets).1 = [])
    (h : Course ctx input stages (s.run ctx input assets).2 result) :
    Course ctx input (s :: stages) assets (result.1.after s, result.2) := by
  cases h with
  | through hquiet =>
    rw [← inTurn_cons]
    exact .through (hquiet.cons hs)
  | halted before t after reports hsplit hquiet hreports hne =>
    rw [← inTurn_cons] at hreports ⊢
    have hsplit' : s :: stages = (s :: before) ++ t :: after := by rw [hsplit, List.cons_append]
    exact .halted (s :: before) t after reports hsplit' (hquiet.cons hs) hreports hne

/-- **A run takes its stages in turn.** -/
theorem course_runStages (ctx : Context) (input : StageInput) (stages : List Stage)
    (assets : AssetTable) :
    Course ctx input stages assets (runStages ctx input stages assets) := by
  induction stages generalizing assets with
  | nil => exact .through quiet_nil
  | cons s rest ih =>
    by_cases hs : (s.run ctx input assets).1 = []
    · rw [runStages_cons_of_quiet hs]
      exact (ih (s.run ctx input assets).2).cons hs
    · have hturn : inTurn ctx input ([] ++ [s]) assets = (s.run ctx input assets).2 := inTurn_cons
      rw [runStages_cons_of_reports hs, ← hturn]
      exact .halted [] s rest _ rfl quiet_nil diagnostics_run_only hs

/-- The exit code tells whether a stage ended the run. -/
theorem Course.exitCode_eq_one_iff {result : BuildReport × AssetTable}
    (h : Course ctx input stages assets result) :
    result.1.exitCode = 1 ↔ result.1.haltedAt.isSome := by
  cases h with
  | through _ => simp [BuildReport.exitCode, BuildReport.isSuccess]
  | halted _ _ _ reports _ _ _ hne => simp [BuildReport.exitCode, BuildReport.isSuccess, hne]

/-- **A run of a pipeline is the runs of its stages alone, up to the first
that has something to report.** The stages are those whose last setting is
on, and those that were never set, in their order. -/
theorem run_in_turn (settings : List (Stage × Bool)) (ctx : Context) (input : StageInput)
    (assets : AssetTable) :
    (ofSettings settings).stages =
        (Stage.all.filter fun s => (lastSetting? settings s).getD true) ∧
      (∀ s table, (only s).run ctx input table =
        (⟨[s], if (s.run ctx input table).1 = [] then none else some s, (s.run ctx input table).1⟩,
          (s.run ctx input table).2)) ∧
      Course ctx input (ofSettings settings).stages assets
        ((ofSettings settings).run ctx input assets) ∧
      (((ofSettings settings).run ctx input assets).1.exitCode = 1 ↔
        ((ofSettings settings).run ctx input assets).1.haltedAt.isSome) := by
  have hcourse := course_runStages ctx input (ofSettings settings).stages assets
  exact ⟨stages_ofSettings settings, fun s table => run_only s ctx input table, hcourse,
    hcourse.exitCode_eq_one_iff⟩

end Pipeline

end SplitBuild
