import SplitBuild.Bundle.Validation
import SplitBuild.Proofs.Classification
/-!
# What a clean validation says

The validator looks at one dependency of one bundle at a time. It reports
nothing exactly if every dependency that is not shared stays in the
package of its bundle (`validate_eq_nil_iff`), and then so does everything
that a bundle loads over other bundles: **the packages of a graph are
isolated along whole chains of dependencies**
(`validate_eq_nil_iff_isolated`). A chain may pass through one bundle
several times, and ids may repeat in the graph.
-/

namespace SplitBuild

variable {ctx : Context} {g : BundleGraph} {b : Bundle} {id : String}

namespace BundleGraph

/-! ## The reports of one bundle -/

theorem mem_crossDependencies_iff :
    id ∈ crossDependencies ctx b ↔ (id ∈ b.dependencies ∧ id ≠ b.id ∧ ¬ ctx.isSharedBundle id) ∧
      ctx.classify id ≠ ctx.classify b.id := by
  simp [crossDependencies]

/-- A dependency of a bundle on itself stays in its package, so that it
needs no exemption. -/
theorem crossDependencies_eq_nil_iff : crossDependencies ctx b = [] ↔
    ∀ id ∈ b.dependencies, ¬ ctx.isSharedBundle id → ctx.classify id = ctx.classify b.id := by
  rw [List.eq_nil_iff_forall_not_mem]
  constructor
  · intro h id hid hshared
    by_contra hne
    have hself : id ≠ b.id := fun heq => hne (by rw [heq])
    exact h id (mem_crossDependencies_iff.2 ⟨⟨hid, hself, hshared⟩, hne⟩)
  · intro h id hid
    obtain ⟨⟨hdep, -, hshared⟩, hne⟩ := mem_crossDependencies_iff.1 hid
    exact hne (h id hdep hshared)

/-- Reports of this kind are of dependencies that reach into another
package. -/
theorem exists_crossDependency_of_mem_validate {d : Diagnostic} (h : d ∈ validate ctx g)
    (hkind : d.kind = .crossSubpackageDependency) :
    ∃ b ∈ g.bundles, ∃ id ∈ crossDependencies ctx b, d = crossDependency b id := by
  obtain ⟨b, hb, hd⟩ := List.mem_flatMap.1 h
  refine ⟨b, hb, ?_⟩
  unfold violations at hd
  split at hd
  · simp at hd
  · rcases List.mem_append.1 hd with hcross | hprefetch
    · obtain ⟨id, hid, rfl⟩ := List.mem_map.1 hcross
      exact ⟨id, hid, rfl⟩
    · -- the other reports of a bundle are of another kind
      split at hprefetch
      · simp at hprefetch
      · obtain rfl := List.mem_singleton.1 hprefetch
        simp [prefetchUse] at hkind

/-- Where every dependency is shared or stays in the package of its bundle,
there is no report of this kind. -/
theorem kind_ne_crossSubpackageDependency
    (h : ∀ b ∈ g.bundles, ∀ id ∈ b.dependencies,
      ctx.isSharedBundle id ∨ ctx.classify id = ctx.classify b.id) :
    ∀ d ∈ validate ctx g, d.kind ≠ .crossSubpackageDependency := by
  intro d hd hkind
  obtain ⟨b, hb, id, hcross, -⟩ := exists_crossDependency_of_mem_validate hd hkind
  have hnil : crossDependencies ctx b = [] :=
    crossDependencies_eq_nil_iff.2 fun id hid hshared => (h b hb id hid).resolve_left hshared
  rw [hnil] at hcross
  cases hcross

theorem violations_eq_nil_iff : violations ctx b = [] ↔
    (b.hasRuntime = false → crossDependencies ctx b = [] ∧ b.prefetch = []) := by
  unfold violations
  cases b.hasRuntime with
  | true => simp
  | false => simp [List.append_eq_nil_iff]

/-! ## Chains of dependencies -/

/-- A bundle with the first id, which does not carry the runtime, lists the
second id among its dependencies. -/
def DependsOn (g : BundleGraph) (source id : String) : Prop :=
  ∃ b ∈ g.bundles, b.id = source ∧ b.hasRuntime = false ∧ id ∈ b.dependencies

/-- Every dependency that is not shared stays in the package of its
bundle. -/
def StaysInPackage (ctx : Context) (g : BundleGraph) : Prop :=
  ∀ source id, g.DependsOn source id → ¬ ctx.isSharedBundle id →
    ctx.classify id = ctx.classify source

/-- No bundle asks to fetch others ahead of time, those with the runtime
apart. -/
def FetchesNothingAhead (g : BundleGraph) : Prop :=
  ∀ b ∈ g.bundles, b.hasRuntime = false → b.prefetch = []

theorem staysInPackage_iff : StaysInPackage ctx g ↔
    ∀ b ∈ g.bundles, b.hasRuntime = false → crossDependencies ctx b = [] := by
  simp only [crossDependencies_eq_nil_iff]
  constructor
  · intro h b hb hruntime id hid
    exact h b.id id ⟨b, hb, rfl, hruntime, hid⟩
  · rintro h source id ⟨b, hb, rfl, hruntime, hid⟩
    exact h b hb hruntime id hid

/-- The validator reports nothing exactly if no dependency leaves its
package and nothing is fetched ahead. -/
theorem validate_eq_nil_iff :
    validate ctx g = [] ↔ StaysInPackage ctx g ∧ FetchesNothingAhead g := by
  rw [staysInPackage_iff, validate, List.flatMap_eq_nil_iff]
  simp only [violations_eq_nil_iff]
  constructor
  · exact fun h => ⟨fun b hb hr => (h b hb hr).1, fun b hb hr => (h b hb hr).2⟩
  · exact fun h b hb hr => ⟨h.1 b hb hr, h.2 b hb hr⟩

/-- Where dependencies stay in their packages, so does a whole chain of
them, as long as it leads to no shared bundle. -/
theorem StaysInPackage.classify_eq_of_isChain (h : StaysInPackage ctx g) {first : String}
    {rest : List String} (hchain : (first :: rest).IsChain g.DependsOn)
    (hunshared : ∀ id ∈ rest, ¬ ctx.isSharedBundle id) :
    ∀ id ∈ rest, ctx.classify id = ctx.classify first := by
  -- along the chain; the package of each bundle is that of the one before it
  induction rest generalizing first with
  | nil => simp
  | cons next rest ih =>
    obtain ⟨hdep, hchain⟩ := List.isChain_cons_cons.1 hchain
    obtain ⟨hnext, hrest⟩ := List.forall_mem_cons.1 hunshared
    have hstep : ctx.classify next = ctx.classify first := h first next hdep hnext
    exact List.forall_mem_cons.2 ⟨hstep, fun id hid => (ih hchain hrest id hid).trans hstep⟩

/-- **A validation is clean exactly if packages are isolated**: whatever a
chain of dependencies leads to over bundles that are not shared belongs to
the package that the chain starts in, and nothing is fetched ahead. -/
theorem validate_eq_nil_iff_isolated : validate ctx g = [] ↔
    (∀ first rest, (first :: rest).IsChain g.DependsOn →
      (∀ id ∈ rest, ¬ ctx.isSharedBundle id) →
      ∀ id ∈ rest, ctx.classify id = ctx.classify first) ∧
    ∀ b ∈ g.bundles, b.hasRuntime = false → b.prefetch = [] := by
  rw [validate_eq_nil_iff]
  refine and_congr_left fun _ => ?_
  constructor
  · exact fun h first rest => h.classify_eq_of_isChain
  · -- a dependency is a chain of two bundles
    intro h source id hdep hshared
    exact h source [id] (.cons_cons hdep (.singleton id)) (List.forall_mem_singleton.2 hshared) id
      (List.mem_singleton_self id)

/-- Two bundles of `subA` that depend on each other, and on the shared
vendor bundle. -/
example : validate twoSubpackages
    ⟨[{ Bundle.ofId "subA/a" with dependencies := ["subA/b", "common/vendor"] },
      { Bundle.ofId "subA/b" with dependencies := ["subA/a"] }]⟩ = [] := by
  decide

end BundleGraph

end SplitBuild
