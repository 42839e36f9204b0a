import SplitBuild.Proofs.Bundle.Validation
import SplitBuild.Proofs.Text.ByteOrder
import Mathlib.Data.List.Forall2
/-!
# Every violation, once

The reports of a bundle are its dependencies that reach into another
package, each once and in the order of their bytes, and then one report if
it asks for bundles ahead of time (`reported_violations`). A graph is
reported bundle by bundle, so that no violation hides a later one: **the
report is exactly the violations** (`validate_exact`). It does not depend
on how the dependencies of a bundle are listed, and graphs that are put
together are reported one after the other.
-/

namespace SplitBuild

variable {ctx : Context} {g : BundleGraph} {b c : Bundle} {id : String}

namespace BundleGraph

/-! ## What is to be reported -/

/-- A bundle depends on a bundle that it may not depend on: another one,
which is not shared and belongs to another package. -/
structure Reaches (ctx : Context) (b : Bundle) (id : String) : Prop where
  listed : id ∈ b.dependencies
  other : id ≠ b.id
  unshared : ¬ ctx.isSharedBundle id
  leaves : ctx.classify id ≠ ctx.classify b.id

/-- A diagnostic is of a kind and about some names. -/
def IsReport (kind : Diagnostic.Kind) (subjects : List String) (d : Diagnostic) : Prop :=
  d.kind = kind ∧ d.subjects = subjects

/-- The reports of a bundle that does not carry the runtime. -/
inductive Reported (ctx : Context) (b : Bundle) : List Diagnostic → Prop
  /-- Each dependency that the bundle may not have is reported once, in the
  order of the bytes, and behind them whether anything is fetched ahead. -/
  | intro {ids : List String} {cross ahead : List Diagnostic} :
      ids.Pairwise (fun i j => Text.bytes i < Text.bytes j) →
      (∀ id, id ∈ ids ↔ Reaches ctx b id) →
      List.Forall₂ (fun id => IsReport .crossSubpackageDependency [b.id, id]) ids cross →
      ahead.length = (if b.prefetch = [] then 0 else 1) →
      (∀ d ∈ ahead, IsReport .prefetch [b.id] d) →
      Reported ctx b (cross ++ ahead)

/-- Two bundles differ at most in the order of their dependencies, and in
how often each is listed. -/
structure SameUpToListing (b c : Bundle) : Prop where
  eq_with : c = { b with dependencies := c.dependencies }
  dependencies : ∀ id, id ∈ c.dependencies ↔ id ∈ b.dependencies

/-! ## The reports of one bundle -/

theorem mem_crossDependencies_iff_reaches : id ∈ crossDependencies ctx b ↔ Reaches ctx b id := by
  rw [mem_crossDependencies_iff]
  constructor
  · rintro ⟨⟨hlisted, hother, hunshared⟩, hleaves⟩
    exact ⟨hlisted, hother, hunshared, hleaves⟩
  · intro h
    exact ⟨⟨h.listed, h.other, h.unshared⟩, h.leaves⟩

theorem crossDependencies_pairwise (ctx : Context) (b : Bundle) :
    (crossDependencies ctx b).Pairwise fun i j => Text.bytes i < Text.bytes j :=
  (sortedNames_pairwise_bytes _).filter _

/-- **The violations of a bundle are what is to be reported of it.** -/
theorem reported_violations (hruntime : b.hasRuntime = false) :
    Reported ctx b (violations ctx b) := by
  have hcross : List.Forall₂ (fun id => IsReport .crossSubpackageDependency [b.id, id])
      (crossDependencies ctx b) ((crossDependencies ctx b).map (crossDependency b)) := by
    rw [List.forall₂_map_right_iff, List.forall₂_same]
    exact fun id _ => ⟨rfl, rfl⟩
  rw [violations, hruntime, if_neg Bool.false_ne_true]
  refine .intro (crossDependencies_pairwise ctx b) (fun id => mem_crossDependencies_iff_reaches)
    hcross ?_ fun d hd => ?_
  · cases b.prefetch <;> rfl
  · obtain ⟨-, hd⟩ := List.mem_ite_nil_left.1 hd
    obtain rfl := List.mem_singleton.1 hd
    exact ⟨rfl, rfl⟩

/-- The violations of a bundle do not depend on how its dependencies are
listed. -/
theorem violations_congr (h : SameUpToListing b c) : violations ctx c = violations ctx b := by
  rw [h.eq_with]
  have hcross : crossDependencies ctx { b with dependencies := c.dependencies } =
      crossDependencies ctx b := by
    unfold crossDependencies
    congr 1
    refine sortedNames_congr fun id => ?_
    rw [List.mem_filter, List.mem_filter, h.dependencies]
  unfold violations
  rw [hcross]
  rfl

/-! ## The report of a graph -/

theorem validate_eq_flatMap_filter :
    validate ctx g = (g.bundles.filter fun b => !b.hasRuntime).flatMap (violations ctx) := by
  rw [validate]
  induction g.bundles with
  | nil => rfl
  | cons b rest ih =>
    rw [List.flatMap_cons, ih]
    cases hruntime : b.hasRuntime with
    | true =>
      rw [List.filter_cons_of_neg (by simp [hruntime]), violations, hruntime]
      rfl
    | false => rw [List.filter_cons_of_pos (by simp [hruntime]), List.flatMap_cons]

/-- **The report is exactly the violations**: bundle by bundle in the order
of the graph, those with the runtime left out. Neither the order of a
bundle's dependencies nor their repetition shows in it, and graphs put
together are reported one after the other. -/
theorem validate_exact :
    (∃ reports, List.Forall₂ (Reported ctx) (g.bundles.filter fun b => !b.hasRuntime) reports ∧
      validate ctx g = reports.flatten) ∧
    (∀ g' : BundleGraph, List.Forall₂ SameUpToListing g.bundles g'.bundles →
      validate ctx g' = validate ctx g) ∧
    ∀ g' : BundleGraph, validate ctx ⟨g.bundles ++ g'.bundles⟩ =
      validate ctx g ++ validate ctx g' := by
  refine ⟨?_, fun g' h => ?_, fun g' => List.flatMap_append⟩
  · refine ⟨(g.bundles.filter fun b => !b.hasRuntime).map (violations ctx), ?_, ?_⟩
    · rw [List.forall₂_map_right_iff, List.forall₂_same]
      intro b hb
      have hruntime : b.hasRuntime = false := by simpa using (List.mem_filter.1 hb).2
      exact reported_violations hruntime
    · rw [validate_eq_flatMap_filter, List.flatMap_def]
  · rw [validate, validate]
    generalize g.bundles = bundles at h
    generalize g'.bundles = others at h
    induction h with
    | nil => rfl
    | cons hsame _ ih => rw [List.flatMap_cons, List.flatMap_cons, violations_congr hsame, ih]

/-- A bundle of `subA` that lists a bundle of `subB` twice, one of the main
package, one of its own and the shared vendor bundle. -/
example : (validate twoSubpackages ⟨[{ Bundle.ofId "subA/page" with
      dependencies := ["subB/x", "pages/y", "subA/z", "common/vendor", "subB/x"]
      prefetch := ["subA/z", "subB/x"] }]⟩).map (fun d => (d.kind, d.subjects)) =
    [(.crossSubpackageDependency, ["subA/page", "pages/y"]),
      (.crossSubpackageDependency, ["subA/page", "subB/x"]), (.prefetch, ["subA/page"])] := by
  decide

end BundleGraph

end SplitBuild
