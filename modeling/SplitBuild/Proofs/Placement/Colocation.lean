import SplitBuild.Proofs.Placement.Compat
/-!
# Code stays with the code that needs it

Where consumers are inherited along references and no subpackage is
independent, a script that refers synchronously to one in a subpackage is
in that subpackage itself (`placeCompat_of_refers`). So code in the main
package never needs code in a subpackage, two subpackages never need each
other, and a page needs no code of a subpackage it does not lie in.
-/

namespace SplitBuild

variable {ctx : Context} {g : ModuleGraph} {o m : Module} {root : String}

/-- What the host bundler promises of a graph: every script has a source
file and a consumer that counts, and the consumers of a script are
consumers of the scripts it refers to. -/
structure ModuleGraph.Bundled (g : ModuleGraph) : Prop where
  sourced : ∀ m ∈ g.modules, m.kind = .script → m.resource.isSome
  consumed : ∀ m ∈ g.modules, m.kind = .script → m.consumerNames ≠ []
  inherited : ∀ o ∈ g.modules, ∀ m ∈ g.modules, o.kind = .script → m.kind = .script →
    o.SyncRefersTo m → ∀ n ∈ o.consumerNames, n ∈ m.consumerNames

theorem Module.isPageLevel_eq_false (h : m.kind = .script) : m.isPageLevel = false := by
  simp [isPageLevel, h]

namespace Walk

/-- **What is met from a module is met from the module it refers to**,
unless it is that module. A path that runs back through the module is cut
off there. -/
theorem Met.of_refers {x : Module} (href : g.SyncEdge o m.id) (hne : o.id ≠ m.id)
    (hpass : o.IsPassage) (h : Met g o.id x) : x.id = m.id ∨ Met g m.id x := by
  induction h with
  | @near x he _ =>
    by_cases hx : x.id = m.id
    · exact .inl hx
    · exact .inr (.far (.near href hne) hpass he hx)
  | @far i x _ hp he _ ih =>
    by_cases hx : x.id = m.id
    · exact .inl hx
    · rcases ih with hi | hi
      · exact .inr (.near (hi ▸ he) hx)
      · exact .inr (.far hi hp he hx)

end Walk

namespace Placement

/-- Where consumers are inherited, the roots of a module are among those of
the one it refers to, and one consumer name suffices to have the root. -/
theorem consumerRoots_of_inherited (hnormal : ∀ s ∈ ctx.subpackages.members, s.independent = false)
    (hsub : ∀ n ∈ o.consumerNames, n ∈ m.consumerNames) (hne : o.consumerNames ≠ [])
    (hmatched : ∀ n ∈ m.consumerNames, ctx.subpackages.matching n ≠ none)
    (h : consumerRoots ctx m = [root]) : consumerRoots ctx o = [root] := by
  have hroot : ∀ n ∈ m.consumerNames, ∀ s, ctx.subpackages.matchingNormal n = some s →
      s.root = root := by
    rw [consumerRoots, sortedNames_eq_singleton_iff] at h
    exact fun n hn s hs => (h s.root).1 (List.mem_filterMap.2 ⟨n, hn, by rw [hs]; rfl⟩)
  rw [consumerRoots, sortedNames_eq_singleton_iff]
  intro r
  simp only [List.mem_filterMap, Option.map_eq_some_iff]
  constructor
  · rintro ⟨n, hn, s, hs, rfl⟩
    exact hroot n (hsub n hn) s hs
  · rintro rfl
    obtain ⟨n, hn⟩ := List.exists_mem_of_ne_nil _ hne
    obtain ⟨s, hs⟩ := Option.ne_none_iff_exists'.1 (hmatched n (hsub n hn))
    rw [← SubpackageSet.matchingNormal_eq_matching hnormal] at hs
    exact ⟨n, hn, s, hs, hroot n (hsub n hn) s hs⟩

/-- **A script that refers to one in a subpackage is in that subpackage.** -/
theorem placeCompat_of_refers (hnormal : ∀ s ∈ ctx.subpackages.members, s.independent = false)
    (hids : g.ids.Nodup) (hg : g.Bundled) (ho : o ∈ g.modules) (hm : m ∈ g.modules)
    (hok : o.kind = .script) (hmk : m.kind = .script) (href : o.SyncRefersTo m)
    (h : (placeCompat ctx g m).placement = .subpackage root) :
    (placeCompat ctx g o).placement = .subpackage root := by
  obtain ⟨hroots, hmatched, hout⟩ := placeCompat_eq_subpackage_iff.1 h
  have hsub := hg.inherited o ho m hm hok hmk href
  refine placeCompat_eq_subpackage_iff.2
    ⟨consumerRoots_of_inherited hnormal hsub (hg.consumed o ho hok) hmatched hroots,
      fun n hn => hmatched n (hsub n hn), ?_⟩
  rw [Walk.outsider?_eq_none_iff] at hout ⊢
  intro x hx
  by_cases hom : o.id = m.id
  · exact hout x (hom ▸ hx)
  have hedge : g.SyncEdge o m.id := (ModuleGraph.syncEdge_iff hids hm).2 ⟨ho, href⟩
  rcases hx.of_refers hedge hom ⟨o.isPageLevel_eq_false hok, hg.sourced o ho hok⟩ with hid | hmet
  · -- the walk from `o` has come back to `m`, which is a script
    obtain rfl := ModuleGraph.eq_of_id_eq hids (ModuleGraph.mem_of_get? hx.get?_eq) hm hid
    exact fun hx => absurd hx.1 (by simp [Module.isPageLevel_eq_false hmk])
  · exact hout x hmet

/-- A script with a consumer that counts goes into the main package or a
subpackage. -/
theorem decide_main_or_subpackage (hpolicy : ctx.policy = .compat) (hmk : m.kind = .script)
    (hne : m.consumerNames ≠ []) :
    decide ctx g m = placeCompat ctx g m ∧ ((decide ctx g m).placement = .main ∨
      ∃ r, (decide ctx g m).placement = .subpackage r) := by
  obtain ⟨n, hn⟩ := List.exists_mem_of_ne_nil _ hne
  have h := decide_eq_placeCompat (g := g) hpolicy (Module.isThirdPartyOnly_eq_false_of_mem hn) hmk
  exact ⟨h, by rw [h]; exact placeCompat_main_or_subpackage ctx g m⟩

end Placement

namespace Placements

/-- **Code is placed with the code that needs it.** -/
theorem placed_with_referrer (hpolicy : ctx.policy = .compat)
    (hnormal : ∀ s ∈ ctx.subpackages.members, s.independent = false)
    (hids : g.ids.Nodup) (hg : g.Bundled) (ho : o ∈ g.modules) (hm : m ∈ g.modules)
    (hmk : m.kind = .script) (href : o.SyncRefersTo m) :
    (o.kind = .script → (ofGraph ctx g).placement? o.id = some .main →
      (ofGraph ctx g).placement? m.id = some .main) ∧
    (∀ r, o.kind = .script → (ofGraph ctx g).placement? o.id = some (.subpackage r) →
      (ofGraph ctx g).placement? m.id = some .main ∨
        (ofGraph ctx g).placement? m.id = some (.subpackage r)) ∧
    (∀ resource, (o.kind = .component ∨ o.kind = .appEntry) → o.resource = some resource →
      (ofGraph ctx g).placement? m.id = some .main ∨
        ∃ r, (ofGraph ctx g).placement? m.id = some (.subpackage r) ∧
          Path.isUnder resource r) := by
  rw [placement?_of_mem hids ho, placement?_of_mem hids hm]
  simp only [Option.some.injEq]
  obtain ⟨hdm, hcases⟩ :=
    Placement.decide_main_or_subpackage (g := g) hpolicy hmk (hg.consumed m hm hmk)
  have hback : ∀ r, o.kind = .script → (Placement.decide ctx g m).placement = .subpackage r →
      (Placement.decide ctx g o).placement = .subpackage r := by
    intro r hok hr
    rw [(Placement.decide_main_or_subpackage hpolicy hok (hg.consumed o ho hok)).1]
    exact Placement.placeCompat_of_refers hnormal hids hg ho hm hok hmk href (hdm ▸ hr)
  refine ⟨fun hok hmain => ?_, fun r hok hr => ?_, fun resource hpage hres => ?_⟩
  · rcases hcases with h | ⟨r, h⟩
    · exact h
    · rw [hback r hok h] at hmain
      cases hmain
  · rcases hcases with h | ⟨r', h⟩
    · exact .inl h
    · rw [hback r' hok h] at hr
      exact .inr (hr ▸ h)
  · rcases hcases with h | ⟨r, h⟩
    · exact .inl h
    · refine .inr ⟨r, h, ?_⟩
      -- a page is met at the first step, so it is not outside
      have hlevel : o.isPageLevel := by rcases hpage with hk | hk <;> simp [Module.isPageLevel, hk]
      have hne : o.id ≠ m.id := by
        intro hid
        obtain rfl := ModuleGraph.eq_of_id_eq hids ho hm hid
        simp [Module.isPageLevel_eq_false hmk] at hlevel
      obtain ⟨-, -, hout⟩ := Placement.placeCompat_eq_subpackage_iff.1 (hdm ▸ h)
      have hno := Walk.outsider?_eq_none_iff.1 hout o
        (.near ((ModuleGraph.syncEdge_iff hids hm).2 ⟨ho, href⟩) hne)
      by_contra hunder
      refine hno ⟨hlevel, resource, hres, hunder, fun s hs => ?_⟩
      rw [hnormal s (SubpackageSet.mem_of_matching hs)]
      simp

/-- Where the page of the main package refers synchronously, the walk brings
the first script into the main package, and the second one follows. -/
theorem placed_with_near_script :
    (ofGraph twoSubpackages (scriptCycle .sync)).placement? (nearScript .sync).id = some .main ∧
      (ofGraph twoSubpackages (scriptCycle .sync)).placement? farScript.id = some .main := by
  have hids : (scriptCycle .sync).ids.Nodup := by decide
  have ho : nearScript .sync ∈ (scriptCycle .sync).modules := by decide
  have hm : farScript ∈ (scriptCycle .sync).modules := by decide
  have hbundled : (scriptCycle .sync).Bundled := by
    constructor <;> decide
  have hlook : Walk.look twoSubpackages "subA" ((scriptCycle .sync).incoming "subA/near.js")
      ⟨["subA/near.js"], []⟩ = .error "pages/index.vue" := by
    rw [ModuleGraph.incoming_eq]
    decide
  have hmain : (ofGraph twoSubpackages (scriptCycle .sync)).placement? (nearScript .sync).id
      = some .main := by
    rw [placement?_of_mem hids ho, Placement.decide_eq_placeCompat rfl (by decide) rfl]
    rcases Placement.placeCompat_main_or_subpackage twoSubpackages (scriptCycle .sync)
      (nearScript .sync) with h | ⟨r, h⟩
    · rw [h]
    · -- the walk would have to find nothing, and it finds the page
      obtain ⟨hroots, -, hout⟩ := Placement.placeCompat_eq_subpackage_iff.1 h
      have hsub : Placement.consumerRoots twoSubpackages (nearScript .sync) = ["subA"] := by
        decide
      obtain rfl : "subA" = r := by simpa [hsub] using hroots
      rw [Walk.outsider?, nearScript, Walk.run_of_look_error hlook] at hout
      cases hout
  exact ⟨hmain, (placed_with_referrer rfl (by decide) hids hbundled ho hm rfl (by decide)).1 rfl hmain⟩

end Placements

end SplitBuild
