import SplitBuild.Proofs.Bundle.Validation
import SplitBuild.Proofs.Placement.Compat
/-!
# Consumers may load what is split for them

The compat policy places a script by the roots of its consumers that are
not independent, and the validator compares bundle ids by their deepest
root among all. The two agree on every consumer that does not belong to an
independent subpackage: the vendor bundle that holds the script is shared
or of the package of the consumer (`no_crossDependency_of_placed`). Where
ids are distinct this reaches the map that a build reads, and every bundle
of a graph at once (`Placements.no_crossDependency_of_placement?`). A root
between a subpackage and its vendor bundle would take that bundle over,
which `NoRootOnVendorPath` excludes.
-/

namespace SplitBuild

variable {ctx : Context} {g : ModuleGraph} {m : Module} {b : Bundle} {c root : String}

/-! ## The package of a vendor bundle -/

namespace Context

/-- No subpackage lies between another one and its vendor bundle: no root is
another root followed by a directory of the name of the vendor bundle. -/
def NoRootOnVendorPath (ctx : Context) : Prop :=
  ∀ s ∈ ctx.subpackages.members, ∀ t ∈ ctx.subpackages.members, ∀ dir rest : String,
    ctx.vendorBundle = dir ++ "/" ++ rest → t.root ≠ s.root ++ "/" ++ dir

/-- **The vendor bundle of a subpackage belongs to it.** -/
theorem classify_vendorBundleFor (hpath : ctx.NoRootOnVendorPath) {s : Subpackage}
    (hs : s ∈ ctx.subpackages.members) :
    ctx.classify (ctx.vendorBundleFor (.subpackage s.root)) = .subpackage s.root := by
  have hunder : ∀ t ∈ ctx.subpackages.members,
      Path.isUnder (ctx.vendorBundleFor (.subpackage s.root)) t.root ↔
        t.root.toList ++ ['/'] <+: s.root.toList ++ ['/'] ++ ctx.vendorBundle.toList := by
    intro t ht
    rw [Path.isUnder_iff_of_trimmed (ctx.subpackages.trimmed t ht), vendorBundleFor,
      String.toList_append, String.toList_append]
    rfl
  refine SubpackageSet.classify_eq_subpackage_iff.2
    ⟨⟨s, hs, rfl, rfl, (hunder s hs).2 (List.prefix_append _ _)⟩, fun t ht _ hut => ?_⟩
  by_contra hlonger
  -- a longer root would start with `s.root` and a slash, and what follows
  -- there would be a directory of the vendor bundle
  obtain ⟨rest, hrest⟩ := (hunder t ht).1 hut
  have hlen : (s.root.toList ++ ['/']).length ≤ t.root.toList.length := by
    simp only [List.length_append, String.length_toList, List.length_singleton]
    omega
  obtain ⟨dir, hdir⟩ : s.root.toList ++ ['/'] <+: t.root.toList :=
    List.prefix_of_prefix_length_le (List.prefix_append _ ctx.vendorBundle.toList)
      (hrest ▸ (List.prefix_append _ _).trans (List.prefix_append _ rest)) hlen
  have hvendor : ctx.vendorBundle.toList = dir ++ ['/'] ++ rest := by
    rw [← hdir, List.append_assoc, List.append_assoc, List.append_cancel_left_eq] at hrest
    simpa using hrest.symm
  refine hpath s hs t ht (String.ofList dir) (String.ofList rest) ?_ ?_
  · exact String.toList_injective (by simpa using hvendor)
  · exact String.toList_injective (by simpa using hdir.symm)

end Context

/-! ## Consumers of a placed script -/

namespace Placement

/-- A consumer of a script in a subpackage belongs to the subpackage itself,
unless it belongs to an independent one. -/
theorem classify_consumer_of_decide (hpolicy : ctx.policy = .compat)
    (hplaced : (decide ctx g m).placement = .subpackage root) (hc : c ∈ m.consumerNames)
    (hnormal : ∀ s, ctx.subpackages.matching c = some s → s.independent = false) :
    ctx.classify c = .subpackage root := by
  obtain ⟨-, -, hcompat⟩ := (decide_eq_subpackage_iff hpolicy).1 hplaced
  obtain ⟨hroots, hmatched, -⟩ := placeCompat_eq_subpackage_iff.1 hcompat
  obtain ⟨s, hs⟩ := Option.ne_none_iff_exists'.1 (hmatched c hc)
  have hlongest := SubpackageSet.isLongestRoot_of_matching hs (hnormal s hs)
  have hroot : s.root = root := (consumerRoots_eq_singleton_iff.1 hroots s.root).1 ⟨c, hc, hlongest⟩
  exact SubpackageSet.classify_eq_subpackage_iff.2
    (SubpackageSet.exists_matching_iff.1 ⟨s, hs, hroot⟩)

/-- A script goes into a declared subpackage. -/
theorem exists_member_of_decide (hpolicy : ctx.policy = .compat)
    (hplaced : (decide ctx g m).placement = .subpackage root) :
    ∃ s ∈ ctx.subpackages.members, s.root = root := by
  obtain ⟨-, -, hcompat⟩ := (decide_eq_subpackage_iff hpolicy).1 hplaced
  obtain ⟨hroots, -, -⟩ := placeCompat_eq_subpackage_iff.1 hcompat
  obtain ⟨n, -, ⟨s, hs, -, hroot, -⟩, -⟩ := (consumerRoots_eq_singleton_iff.1 hroots root).2 rfl
  exact ⟨s, hs, hroot⟩

/-- **The vendor bundle of a placed script is shared or belongs where the
consumer does.** -/
theorem isSharedBundle_or_classify_eq {package : Package} (hpolicy : ctx.policy = .compat)
    (hpath : ctx.NoRootOnVendorPath) (hplaced : (decide ctx g m).placement.package? = some package)
    (hconsumer : ⟨some c⟩ ∈ m.consumers) (hthird : ¬ IsThirdPartyName c)
    (hnormal : ∀ s, ctx.subpackages.matching c = some s → s.independent = false) :
    ctx.isSharedBundle (ctx.vendorBundleFor package) ∨
      ctx.classify (ctx.vendorBundleFor package) = ctx.classify c := by
  have hc : c ∈ m.consumerNames := Module.mem_consumerNames_iff.2 ⟨.named hconsumer, hthird⟩
  cases hdecide : (decide ctx g m).placement with
  | unsplit => simp [hdecide, package?] at hplaced
  | main =>
    obtain rfl : Package.main = package := by simpa [hdecide, package?] using hplaced
    exact .inl (by simp [Context.isSharedBundle, Context.vendorBundleFor])
  | subpackage root =>
    obtain rfl : Package.subpackage root = package := by simpa [hdecide, package?] using hplaced
    obtain ⟨s, hs, rfl⟩ := exists_member_of_decide hpolicy hdecide
    refine .inr ?_
    rw [Context.classify_vendorBundleFor hpath hs,
      classify_consumer_of_decide hpolicy hdecide hc hnormal]

/-- **Placement and validator agree.** A consumer of a script, if it does
not belong to an independent subpackage, may depend on the vendor bundle
that the compat policy splits the script into. -/
theorem no_crossDependency_of_placed {package : Package} (hpolicy : ctx.policy = .compat)
    (hpath : ctx.NoRootOnVendorPath)
    (hplaced : (decide ctx g m).placement.package? = some package)
    (hconsumer : ⟨some c⟩ ∈ m.consumers) (hthird : ¬ IsThirdPartyName c)
    (hnormal : ∀ s, ctx.subpackages.matching c = some s → s.independent = false)
    (hid : b.id = c) (hdeps : b.dependencies = [ctx.vendorBundleFor package]) :
    ∀ d ∈ BundleGraph.validate ctx ⟨[b]⟩, d.kind ≠ .crossSubpackageDependency := by
  refine BundleGraph.kind_ne_crossSubpackageDependency fun b' hb' id hdep => ?_
  obtain rfl := List.mem_singleton.1 hb'
  obtain rfl : id = ctx.vendorBundleFor package := by simpa [hdeps] using hdep
  rw [hid]
  exact isSharedBundle_or_classify_eq hpolicy hpath hplaced hconsumer hthird hnormal

/-! A page of `subA` and a page of the independent `solo` use one script,
which goes into `subA`, since `solo` does not count. -/

def withIndependent : Context :=
  { Context.default with
    subpackages := .ofDeclared [.ofRoot "subA", { Subpackage.ofRoot "solo" with independent := true }] }

/-- The script that both pages use. -/
def usedTwice : Module where
  id := "util.js"
  resource := some "util.js"
  kind := .script
  references := []
  consumers := [⟨some "subA/page"⟩, ⟨some "solo/page"⟩]

/-- The page of `subA` may load the vendor bundle of `subA`. -/
theorem vendorBundle_of_subA_loaded :
    (decide withIndependent ⟨[usedTwice]⟩ usedTwice).placement = .subpackage "subA" ∧
      ∀ d ∈ BundleGraph.validate withIndependent
        ⟨[{ Bundle.ofId "subA/page" with dependencies := ["subA/common/vendor"] }]⟩,
        d.kind ≠ .crossSubpackageDependency := by
  have hlook : Walk.look withIndependent "subA" (ModuleGraph.incoming ⟨[usedTwice]⟩ "util.js")
      ⟨["util.js"], []⟩ = .ok ⟨["util.js"], []⟩ := by
    rw [ModuleGraph.incoming_eq]
    decide
  have hwalk : Walk.outsider? withIndependent ⟨[usedTwice]⟩ usedTwice "subA" = none := by
    refine (Walk.run_of_look_ok hlook).trans ?_
    rw [Walk.run]
  have hplaced : (decide withIndependent ⟨[usedTwice]⟩ usedTwice).placement = .subpackage "subA" := by
    rw [decide_eq_placeCompat rfl (by decide) rfl]
    exact placeCompat_eq_subpackage_iff.2 ⟨by decide, by decide, hwalk⟩
  have hpath : withIndependent.NoRootOnVendorPath := by
    intro s _ t ht dir _ _ hroot
    have hslash : ∀ t ∈ withIndependent.subpackages.members, '/' ∉ t.root.toList := by decide
    exact hslash t ht (by simp [hroot])
  refine ⟨hplaced, no_crossDependency_of_placed rfl hpath (by rw [hplaced]; rfl)
    (c := "subA/page") (by decide) (by unfold IsThirdPartyName; decide) ?_ rfl (by decide)⟩
  decide

end Placement

/-! ## The bundles of a build -/

namespace Placements

/-- A bundle depends on nothing but the vendor bundles that the map of a
graph names for the scripts it consumes. -/
def DependsOnVendors (ctx : Context) (g : ModuleGraph) (b : Bundle) : Prop :=
  ∀ id ∈ b.dependencies, ∃ m ∈ g.modules, ∃ package, ⟨some b.id⟩ ∈ m.consumers ∧
    ((ofGraph ctx g).placement? m.id).bind Placement.package? = some package ∧
    id = ctx.vendorBundleFor package

/-- **The map of a build and its validation agree.** Bundles that depend on
nothing but the vendor bundles of the scripts they consume are not reported
for it, where none of them belongs to an independent subpackage. -/
theorem no_crossDependency_of_placement? {bundles : BundleGraph} (hpolicy : ctx.policy = .compat)
    (hpath : ctx.NoRootOnVendorPath) (hids : g.ids.Nodup)
    (hdepends : ∀ b ∈ bundles.bundles, DependsOnVendors ctx g b)
    (hthird : ∀ b ∈ bundles.bundles, ¬ IsThirdPartyName b.id)
    (hnormal : ∀ b ∈ bundles.bundles,
      ∀ s, ctx.subpackages.matching b.id = some s → s.independent = false) :
    ∀ d ∈ BundleGraph.validate ctx bundles, d.kind ≠ .crossSubpackageDependency := by
  refine BundleGraph.kind_ne_crossSubpackageDependency fun b hb id hdep => ?_
  obtain ⟨m, hm, package, hconsumer, hplaced, rfl⟩ := hdepends b hb id hdep
  rw [placement?_of_mem hids hm, Option.bind_some] at hplaced
  exact Placement.isSharedBundle_or_classify_eq hpolicy hpath hplaced hconsumer (hthird b hb)
    (hnormal b hb)

end Placements

end SplitBuild
