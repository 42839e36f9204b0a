import SplitBuild.Bundle.Groups
import SplitBuild.Bundle.Validation
import SplitBuild.Manifest.Component
import SplitBuild.Manifest.Root
import SplitBuild.Placement
import SplitBuild.Script.Loads
import SplitBuild.Script.RuntimeBundle
/-!
# Pipelines

Once the bundles are emitted, stages run over the assets in a fixed order.
Each stage reports what it finds and leaves a table to the next one. The
first stage with something to report ends the run; what earlier stages
changed stays changed. Any stage can be switched off.
-/

namespace SplitBuild

/-! ## Stages -/

/-- A step over the emitted assets. -/
inductive Stage where
  | validateBundles
  | checkStylesheetRuntime
  | rewriteAsyncLoads
  | mergeComponentManifests
  | patchAppManifest
  deriving DecidableEq, Repr

/-- What the stages read beside the context and the assets. -/
structure StageInput where
  bundles : BundleGraph
  fragments : FragmentTable

namespace Stage

/-- The stages in the order in which they run. -/
def all : List Stage :=
  [validateBundles, checkStylesheetRuntime, rewriteAsyncLoads, mergeComponentManifests,
   patchAppManifest]

/-- Every stage is among them. -/
theorem mem_all (s : Stage) : s ∈ all := by cases s <;> simp [all]

/-- The name of a stage. -/
def name : Stage → String
  | validateBundles => "validate-bundles"
  | checkStylesheetRuntime => "check-stylesheet-runtime"
  | rewriteAsyncLoads => "rewrite-async-loads"
  | mergeComponentManifests => "merge-component-manifests"
  | patchAppManifest => "patch-app-manifest"

/-- The stage with a name. -/
def named? (name : String) : Option Stage := all.find? fun s => s.name = name

/-- What a stage reports and what it makes of the assets. -/
def run (s : Stage) (ctx : Context) (input : StageInput) (assets : AssetTable) :
    List Diagnostic × AssetTable :=
  match s with
  | validateBundles => (input.bundles.validate ctx, assets)
  | checkStylesheetRuntime => (RuntimeBundle.checkStylesheets ctx assets, assets)
  | rewriteAsyncLoads => Script.resolveLoads ctx assets
  | mergeComponentManifests => ComponentManifest.mergeManifests ctx input.fragments assets
  | patchAppManifest => ([], RootManifest.patchAsset ctx assets)

end Stage

/-! ## Reports -/

/-- What a run comes to. -/
structure BuildReport where
  /-- The stages that ran, in order. -/
  completed : List Stage
  /-- The stage that ended the run. -/
  haltedAt : Option Stage
  diagnostics : List Diagnostic
  deriving DecidableEq, Repr

namespace BuildReport

/-- The report of a run that has not begun. -/
def empty : BuildReport := ⟨[], none, []⟩

/-- The report of a build that failed before any stage ran. -/
def ofFailure (f : Failure) : BuildReport :=
  { empty with diagnostics := (BuildError.ofFailure f).toDiagnostics }

/-- Nothing is reported. -/
def isSuccess (r : BuildReport) : Bool := r.diagnostics.isEmpty

/-- The exit code of a program that ends with a report. -/
def exitCode (r : BuildReport) : Nat := if r.isSuccess then 0 else 1

/-- The report with one more stage in front. -/
def after (s : Stage) (r : BuildReport) : BuildReport := { r with completed := s :: r.completed }

end BuildReport

/-! ## Runs -/

/-- Which stages run. -/
structure Pipeline where
  enabled : Stage → Bool

namespace Pipeline

/-- The pipeline of all stages. -/
def default : Pipeline := ⟨fun _ => true⟩

/-- The pipeline with a stage switched on or off. -/
def withStage (p : Pipeline) (s : Stage) (enabled : Bool) : Pipeline :=
  ⟨fun t => if t = s then enabled else p.enabled t⟩

/-- The stages that run, in order. -/
def stages (p : Pipeline) : List Stage := Stage.all.filter p.enabled

/-- A run of some stages. -/
def runStages (ctx : Context) (input : StageInput) :
    List Stage → AssetTable → BuildReport × AssetTable
  | [], assets => (.empty, assets)
  | s :: rest, assets =>
    match s.run ctx input assets with
    | ([], next) =>
      let (report, final) := runStages ctx input rest next
      (report.after s, final)
    | (reports, next) => (⟨[s], some s, reports⟩, next)

/-- A run of a pipeline. -/
def run (p : Pipeline) (ctx : Context) (input : StageInput) (assets : AssetTable) :
    BuildReport × AssetTable :=
  runStages ctx input p.stages assets

/-- What the bundler is told before it emits: the groups to split into, and
where every module goes. -/
def placementReport (ctx : Context) (g : ModuleGraph) : Json.Value :=
  .object [("splitChunks", (SplitOptions.ofContext ctx).value),
    ("placements", (Placements.ofGraph ctx g).value)]

end Pipeline

end SplitBuild
