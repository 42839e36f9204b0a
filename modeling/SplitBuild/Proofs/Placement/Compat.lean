import SplitBuild.Placement
import SplitBuild.Proofs.Classification
import SplitBuild.Proofs.Keyed
import SplitBuild.Proofs.Placement.Reach
/-!
# The compat policy, exactly

A module goes into a subpackage exactly where that subpackage is the one
deepest root of its consumers, every consumer lies under some root, and
no chain of synchronous references leads to it from a page or component
outside (`placement?_eq_subpackage_iff`). The parts come first: which
names the consumers of a module count as, what the policy makes of them,
and what a graph holds under an id.
-/

namespace SplitBuild

variable {ctx : Context} {g : ModuleGraph} {m : Module} {root : String}

/-! ## Consumers -/

/-- The name of a bundle that is compiled from third party packages. -/
def IsThirdPartyName (n : String) : Prop := thirdPartyStart.toList <+: n.toList

theorem isSplittableBundle_iff {n : String} : isSplittableBundle n ↔ ¬ IsThirdPartyName n := by
  rw [isSplittableBundle, IsThirdPartyName, Option.isNone_iff_eq_none, Option.eq_none_iff_forall_ne_some]
  constructor
  · rintro h ⟨rest, hrest⟩
    exact h rest (Text.after?_eq_some_iff.2 hrest.symm)
  · intro h rest hrest
    exact h ⟨rest, (Text.after?_eq_some_iff.1 hrest).symm⟩

namespace Module

/-- A name that a bundle using the module counts under. -/
inductive UsedAs (m : Module) : String → Prop
  /-- A bundle counts under the name it has. -/
  | named {n : String} : ⟨some n⟩ ∈ m.consumers → UsedAs m n
  /-- The only bundle, without a name, counts under the source file of the
  module. -/
  | alone : m.consumers = [⟨none⟩] → UsedAs m (m.resource.getD "")
  /-- A bundle without a name beside others counts under the empty one. -/
  | unnamed : ⟨none⟩ ∈ m.consumers → m.consumers ≠ [⟨none⟩] → UsedAs m ""

/-- **Consumer names are the names the consumers count under**, third
party ones left out. -/
theorem mem_consumerNames_iff {n : String} :
    n ∈ m.consumerNames ↔ m.UsedAs n ∧ ¬ IsThirdPartyName n := by
  rw [consumerNames, List.mem_filter, isSplittableBundle_iff]
  refine and_congr_left fun _ => ?_
  simp only [List.mem_map]
  constructor
  · rintro ⟨⟨name⟩, hc, rfl⟩
    cases name with
    | some k => exact .named hc
    | none =>
      by_cases h : m.consumers = [⟨none⟩]
      · simpa [unnamedConsumer, h] using UsedAs.alone h
      · simpa [unnamedConsumer, h] using UsedAs.unnamed hc h
  · intro h
    cases h with
    | named hc => exact ⟨_, hc, rfl⟩
    | alone h => exact ⟨⟨none⟩, by simp [h], by simp [unnamedConsumer, h]⟩
    | unnamed hc h => exact ⟨⟨none⟩, hc, by simp [unnamedConsumer]⟩

theorem isThirdPartyOnly_eq_false_iff :
    m.isThirdPartyOnly = false ↔
      m.consumers = [] ∨ ∃ c ∈ m.consumers, ∀ n, c.name = some n → ¬ IsThirdPartyName n := by
  rw [isThirdPartyOnly, Bool.and_eq_false_iff, Bool.not_eq_false', List.isEmpty_iff,
    List.all_eq_false]
  refine or_congr_right (exists_congr fun c => and_congr_right fun _ => ?_)
  cases c.name with
  | none => simp
  | some n => simp [← isSplittableBundle_iff]

/-- A module with a consumer name is not held by third party bundles
alone. -/
theorem isThirdPartyOnly_eq_false_of_mem {n : String} (h : n ∈ m.consumerNames) :
    m.isThirdPartyOnly = false := by
  obtain ⟨hused, hn⟩ := mem_consumerNames_iff.1 h
  rw [isThirdPartyOnly_eq_false_iff]
  cases hused with
  | named hc => exact .inr ⟨_, hc, fun k hk => by rwa [← Option.some.inj hk]⟩
  | alone hc => exact .inr ⟨⟨none⟩, by rw [hc]; exact List.mem_cons_self, by simp⟩
  | unnamed hc _ => exact .inr ⟨⟨none⟩, hc, by simp⟩

end Module

/-! ## The policy -/

/-- Sorting leaves one name exactly where there is no other. -/
theorem sortedNames_eq_singleton_iff {names : List String} {n : String} :
    sortedNames names = [n] ↔ ∀ x, x ∈ names ↔ x = n := by
  constructor
  · intro h x
    rw [← mem_sortedNames, h, List.mem_singleton]
  · intro h
    have hmem : ∀ x, x ∈ sortedNames names ↔ x = n := fun x => mem_sortedNames.trans (h x)
    have hsort := sortedNames_pairwise names
    cases hl : sortedNames names with
    | nil => simpa [hl] using (hmem n).2 rfl
    | cons a rest =>
      rw [hl] at hmem hsort
      obtain rfl := (hmem a).1 List.mem_cons_self
      cases rest with
      | nil => rfl
      | cons b rest =>
        have hb : b = a := (hmem b).1 (by simp)
        have hlt := List.rel_of_pairwise_cons hsort (List.mem_cons_self (a := b) (l := rest))
        simp [hb] at hlt

namespace Placement

/-- The roots of the consumers are the longest ones, over the subpackages
that are not independent. -/
theorem consumerRoots_eq_singleton_iff :
    consumerRoots ctx m = [root] ↔ ∀ r,
      (∃ n ∈ m.consumerNames, ctx.subpackages.IsLongestRoot (fun s => !s.independent) n r) ↔
        r = root := by
  rw [consumerRoots, sortedNames_eq_singleton_iff]
  simp only [List.mem_filterMap, Option.map_eq_some_iff, SubpackageSet.exists_matchingNormal_iff]

/-- **The compat policy puts a script into a subpackage** exactly where it
is the one root of the consumers, no consumer lies outside of all roots,
and the walk finds nothing. -/
theorem placeCompat_eq_subpackage_iff :
    (placeCompat ctx g m).placement = .subpackage root ↔
      consumerRoots ctx m = [root] ∧
      (∀ n ∈ m.consumerNames, ctx.subpackages.matching n ≠ none) ∧
      Walk.outsider? ctx g m root = none := by
  unfold placeCompat
  split
  · rename_i h
    simp [h]
  · rename_i r h
    rw [h]
    unfold placeUnder
    split
    · rename_i n hn
      have hnone := List.find?_some hn
      have hmem := List.mem_of_find?_eq_some hn
      simp only [reduceCtorEq, false_iff, not_and]
      intro _ hall
      exact absurd (Option.isNone_iff_eq_none.1 hnone) (hall n hmem)
    · rename_i hn
      have hall : ∀ n ∈ m.consumerNames, ctx.subpackages.matching n ≠ none := by
        simpa [List.find?_eq_none] using hn
      split
      · rename_i c hc
        simp only [reduceCtorEq, List.cons.injEq, and_true, false_iff, not_and]
        rintro rfl _
        simp [hc]
      · rename_i hc
        simp only [subpackage.injEq, List.cons.injEq, and_true]
        constructor
        · rintro rfl
          exact ⟨rfl, hall, hc⟩
        · exact fun h => h.1
  · rename_i hne hsingle
    simp only [reduceCtorEq, false_iff, not_and]
    exact fun h => absurd h (hsingle root)

/-- The compat policy puts a script into the main package or a
subpackage. -/
theorem placeCompat_main_or_subpackage (ctx : Context) (g : ModuleGraph) (m : Module) :
    (placeCompat ctx g m).placement = .main ∨
      ∃ r, (placeCompat ctx g m).placement = .subpackage r := by
  unfold placeCompat
  split
  · exact .inl rfl
  · unfold placeUnder
    split
    · exact .inl rfl
    · split
      · exact .inl rfl
      · exact .inr ⟨_, rfl⟩
  · exact .inl rfl

/-- A script that is not held by third party bundles alone goes where the
policy puts it. -/
theorem decide_eq_placeCompat (hpolicy : ctx.policy = .compat)
    (hthird : m.isThirdPartyOnly = false) (hkind : m.kind = .script) :
    decide ctx g m = placeCompat ctx g m := by
  unfold decide
  rw [if_neg (by simp [hthird]), if_neg (by simp [hkind]), hpolicy]

theorem decide_eq_subpackage_iff (hpolicy : ctx.policy = .compat) :
    (decide ctx g m).placement = .subpackage root ↔
      m.isThirdPartyOnly = false ∧ m.kind = .script ∧
        (placeCompat ctx g m).placement = .subpackage root := by
  by_cases hthird : m.isThirdPartyOnly = false
  · by_cases hkind : m.kind = .script
    · simp [decide_eq_placeCompat hpolicy hthird hkind, hthird, hkind]
    · simp [decide, hthird, hkind]
  · simp [decide, hthird]

end Placement

/-! ## The decisions for a graph -/

namespace Placements

/-- The module that an id stands for decides. -/
theorem placement?_ofGraph (ctx : Context) (g : ModuleGraph) (id : String) :
    (ofGraph ctx g).placement? id = (g.get? id).map fun m => (Placement.decide ctx g m).placement := by
  rw [placement?, ofGraph, Keyed.get?_ofList, Keyed.get?_eq_find?, ModuleGraph.get?_eq,
    Module.last?, ← List.map_reverse, List.find?_map]
  simp only [Option.map_map]
  rfl

theorem placement?_of_mem (hids : g.ids.Nodup) (hm : m ∈ g.modules) :
    (ofGraph ctx g).placement? m.id = some (Placement.decide ctx g m).placement := by
  rw [placement?_ofGraph, ModuleGraph.get?_of_mem hids hm, Option.map_some]

/-- **The compat policy, exactly.** -/
theorem placement?_eq_subpackage_iff (hpolicy : ctx.policy = .compat) (hids : g.ids.Nodup)
    (hm : m ∈ g.modules) :
    (ofGraph ctx g).placement? m.id = some (.subpackage root) ↔
      (m.kind = .script ∧
        (m.consumers = [] ∨ ∃ c ∈ m.consumers, ∀ n, c.name = some n → ¬ IsThirdPartyName n)) ∧
      (∀ r, (∃ n, m.UsedAs n ∧ ¬ IsThirdPartyName n ∧
        ctx.subpackages.IsLongestRoot (fun s => !s.independent) n r) ↔ r = root) ∧
      (∀ n, m.UsedAs n → ¬ IsThirdPartyName n →
        ∃ s ∈ ctx.subpackages.members, Path.isUnder n s.root) ∧
      ¬ ∃ through last, Walk.Chain g m through last ∧ last.IsOutside ctx root := by
  have hroots : (∀ r, (∃ n, m.UsedAs n ∧ ¬ IsThirdPartyName n ∧
      ctx.subpackages.IsLongestRoot (fun s => !s.independent) n r) ↔ r = root) ↔
      Placement.consumerRoots ctx m = [root] := by
    simp only [Placement.consumerRoots_eq_singleton_iff, Module.mem_consumerNames_iff, and_assoc]
  have hmatched : (∀ n, m.UsedAs n → ¬ IsThirdPartyName n →
      ∃ s ∈ ctx.subpackages.members, Path.isUnder n s.root) ↔
      ∀ n ∈ m.consumerNames, ctx.subpackages.matching n ≠ none := by
    simp only [Module.mem_consumerNames_iff, and_imp, ne_eq, SubpackageSet.matching_eq_none_iff,
      not_forall, Classical.not_not, exists_prop]
  have hchains : (¬ ∃ through last, Walk.Chain g m through last ∧ last.IsOutside ctx root) ↔
      Walk.outsider? ctx g m root = none := by
    rw [Walk.outsider?_eq_none_iff]
    constructor
    · intro hno last hmet hout
      obtain ⟨through, hc⟩ := (Walk.exists_chain_iff hids hm).2 hmet
      exact hno ⟨through, last, hc, hout⟩
    · rintro hno ⟨through, last, hc, hout⟩
      exact hno last ((Walk.exists_chain_iff hids hm).1 ⟨through, hc⟩) hout
  rw [placement?_of_mem hids hm, Option.some.injEq, Placement.decide_eq_subpackage_iff hpolicy,
    Placement.placeCompat_eq_subpackage_iff, hroots, hmatched, hchains,
    Module.isThirdPartyOnly_eq_false_iff]
  tauto

/-! A page of the main package refers to one of two scripts that refer to
each other and are used by a page of `subA`. -/

/-- The script that the page of the main package refers to. -/
def nearScript (kind : ReferenceKind) : Module where
  id := "subA/near.js"
  resource := some "subA/near.js"
  kind := .script
  references := [⟨"pages/index.vue", kind⟩, ⟨"subA/page.vue", .sync⟩, ⟨"subA/far.js", .sync⟩]
  consumers := [⟨some "subA/page"⟩]

/-- The script that only the other one refers to. -/
def farScript : Module where
  id := "subA/far.js"
  resource := some "subA/far.js"
  kind := .script
  references := [⟨"subA/near.js", .sync⟩]
  consumers := [⟨some "subA/page"⟩]

/-- The two pages and the two scripts. -/
def scriptCycle (kind : ReferenceKind) : ModuleGraph where
  modules := [.ofSource "pages/index.vue" .component, .ofSource "subA/page.vue" .component,
    nearScript kind, farScript]

/-- Where the page refers asynchronously, the scripts stay in `subA`, and no
chain leads to the second one from outside. -/
theorem no_chain_of_async_reference :
    (ofGraph twoSubpackages (scriptCycle .async)).placement? farScript.id
        = some (.subpackage "subA") ∧
      ¬ ∃ through last, Walk.Chain (scriptCycle .async) farScript through last ∧
        last.IsOutside twoSubpackages "subA" := by
  have hids : (scriptCycle .async).ids.Nodup := by decide
  have hm : farScript ∈ (scriptCycle .async).modules := by decide
  have hfar : Walk.look twoSubpackages "subA" ((scriptCycle .async).incoming "subA/far.js")
      ⟨["subA/far.js"], []⟩ = .ok ⟨["subA/near.js", "subA/far.js"], ["subA/near.js"]⟩ := by
    rw [ModuleGraph.incoming_eq]
    decide
  have hnear : Walk.look twoSubpackages "subA" ((scriptCycle .async).incoming "subA/near.js")
      ⟨["subA/near.js", "subA/far.js"], []⟩
        = .ok ⟨["subA/page.vue", "subA/near.js", "subA/far.js"], []⟩ := by
    rw [ModuleGraph.incoming_eq]
    decide
  have hwalk : Walk.outsider? twoSubpackages (scriptCycle .async) farScript "subA" = none := by
    rw [Walk.outsider?, farScript, Walk.run_of_look_ok hfar, Walk.run_of_look_ok hnear, Walk.run]
  have h : (ofGraph twoSubpackages (scriptCycle .async)).placement? farScript.id
      = some (.subpackage "subA") := by
    rw [placement?_of_mem hids hm, Placement.decide_eq_placeCompat rfl (by decide) rfl]
    exact congrArg some (Placement.placeCompat_eq_subpackage_iff.2
      ⟨by decide, by decide, hwalk⟩)
  exact ⟨h, ((placement?_eq_subpackage_iff rfl hids hm).1 h).2.2.2⟩

end Placements

end SplitBuild
