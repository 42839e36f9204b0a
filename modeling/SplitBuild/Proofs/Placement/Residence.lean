import SplitBuild.Proofs.Placement.Compat
/-!
# Code that a page needs

A page or component needs every module that it reaches through
synchronous references. The walk of the compat policy meets exactly those
that are reached by way of modules with a source file, through which alone
it goes on (`met_iff_reaches`). So a script that only one subpackage
consumes goes there unless such a chain leads to it from a page outside
(`placed_under_iff_unreached`), and a script without a source file hides
what is behind it (`subpackage_of_hidden_page`).
-/

namespace SplitBuild

variable {ctx : Context} {g : ModuleGraph} {m o : Module} {root : String}
variable {P : Module → Prop}

/-- `o` needs `m`: a chain of synchronous references between modules of the
graph leads from the one to the other, and what is between them satisfies
`P`. -/
inductive Module.Reaches (g : ModuleGraph) (P : Module → Prop) : Module → Module → Prop
  | direct {o m : Module} : o ∈ g.modules → o.SyncRefersTo m → Reaches g P o m
  | through {o i m : Module} : o ∈ g.modules → o.SyncRefersTo i → P i → Reaches g P i m →
      Reaches g P o m

namespace Module.Reaches

theorem mem (h : o.Reaches g P m) : o ∈ g.modules := by
  cases h with
  | direct ho _ => exact ho
  | through ho _ _ _ => exact ho

end Module.Reaches

namespace Walk

/-- **The walk meets the modules that need its start**, by way of modules
through which it goes on. A chain that comes back to the start is cut off
there. -/
theorem met_iff_reaches (hids : g.ids.Nodup) (hm : m ∈ g.modules) :
    Met g m.id o ↔ o ≠ m ∧ o.Reaches g Module.IsPassage m := by
  constructor
  · intro h
    refine ⟨fun hom => h.ne_start (congrArg Module.id hom), ?_⟩
    induction h with
    | near he _ =>
      obtain ⟨ho, href⟩ := (ModuleGraph.syncEdge_iff hids hm).1 he
      exact .direct ho href
    | far hi hp he _ ih =>
      have him := ModuleGraph.mem_of_get? hi.get?_eq
      obtain ⟨ho, href⟩ := (ModuleGraph.syncEdge_iff hids him).1 he
      exact .through ho href hp ih
  · rintro ⟨hom, h⟩
    have hne : o.id ≠ m.id := fun hid => hom (ModuleGraph.eq_of_id_eq hids h.mem hm hid)
    induction h with
    | direct ho href => exact .near ((ModuleGraph.syncEdge_iff hids hm).2 ⟨ho, href⟩) hne
    | @through o i m ho href hp hi ih =>
      have hedge : g.SyncEdge o i.id := (ModuleGraph.syncEdge_iff hids hi.mem).2 ⟨ho, href⟩
      by_cases him : i = m
      · exact .near (him ▸ hedge) hne
      · have hid : i.id ≠ m.id := fun hid => him (ModuleGraph.eq_of_id_eq hids hi.mem hm hid)
        exact .far (ih hm him hid) hp hedge hne

end Walk

namespace Placement

/-- By its consumers alone a module goes into a subpackage: it is the one
deepest root of them, and every one lies under some root. -/
def ConsumedUnder (ctx : Context) (m : Module) (root : String) : Prop :=
  consumerRoots ctx m = [root] ∧ ∀ n ∈ m.consumerNames, ctx.subpackages.matching n ≠ none

/-- A root comes from a consumer name. -/
theorem ConsumedUnder.isThirdPartyOnly_eq_false (h : ConsumedUnder ctx m root) :
    m.isThirdPartyOnly = false := by
  have hroot : root ∈ consumerRoots ctx m := by
    rw [h.1]
    exact List.mem_singleton_self root
  obtain ⟨n, hn, -⟩ := List.mem_filterMap.1 (mem_sortedNames.1 hroot)
  exact Module.isThirdPartyOnly_eq_false_of_mem hn

theorem decide_eq_subpackage_iff_unreached (hpolicy : ctx.policy = .compat) (hids : g.ids.Nodup)
    (hm : m ∈ g.modules) (hkind : m.kind = .script) :
    (decide ctx g m).placement = .subpackage root ↔ ConsumedUnder ctx m root ∧
      ∀ o : Module, o.IsOutside ctx root → ¬ o.Reaches g Module.IsPassage m := by
  have hpage : ∀ o : Module, o.IsOutside ctx root → o ≠ m := by
    rintro o ⟨hlevel, -⟩ rfl
    simp [Module.isPageLevel, hkind] at hlevel
  have hwalk : Walk.outsider? ctx g m root = none ↔
      ∀ o : Module, o.IsOutside ctx root → ¬ o.Reaches g Module.IsPassage m := by
    rw [Walk.outsider?_eq_none_iff]
    constructor
    · intro hno o hout hreach
      exact hno o ((Walk.met_iff_reaches hids hm).2 ⟨hpage o hout, hreach⟩) hout
    · intro hno o hmet hout
      exact hno o hout ((Walk.met_iff_reaches hids hm).1 hmet).2
  rw [decide_eq_subpackage_iff hpolicy, placeCompat_eq_subpackage_iff, hwalk, ConsumedUnder]
  constructor
  · rintro ⟨-, -, hroots, hmatched, hno⟩
    exact ⟨⟨hroots, hmatched⟩, hno⟩
  · rintro ⟨hunder, hno⟩
    exact ⟨ConsumedUnder.isThirdPartyOnly_eq_false hunder, hkind, hunder.1, hunder.2, hno⟩

end Placement

namespace Placements

/-- **A script goes into a subpackage exactly if its consumers are there and
no page outside needs it**, by way of modules with a source file that are
no pages. -/
theorem placed_under_iff_unreached (hpolicy : ctx.policy = .compat) (hids : g.ids.Nodup)
    (hm : m ∈ g.modules) (hkind : m.kind = .script) :
    (ofGraph ctx g).placement? m.id = some (.subpackage root) ↔
      Placement.ConsumedUnder ctx m root ∧
        ∀ o : Module, o.IsOutside ctx root → ¬ o.Reaches g Module.IsPassage m := by
  rw [placement?_of_mem hids hm, Option.some.injEq]
  exact Placement.decide_eq_subpackage_iff_unreached hpolicy hids hm hkind

/-! A page of the main package refers to a script without a source file,
which refers to a script that a page of `subA` uses. -/

/-- The page of the main package. -/
def indexPage : Module := .ofSource "pages/index.vue" .component

/-- The script without a source file. -/
def virtualScript : Module where
  id := "virtual"
  resource := none
  kind := .script
  references := [⟨"pages/index.vue", .sync⟩]
  consumers := []

/-- The script that the page needs by way of the other one. -/
def neededScript : Module where
  id := "subA/only.js"
  resource := some "subA/only.js"
  kind := .script
  references := [⟨"virtual", .sync⟩]
  consumers := [⟨some "subA/page"⟩]

def hiddenPage : ModuleGraph where
  modules := [indexPage, virtualScript, neededScript]

/-- Only the script without a source file needs the other one, since the
walk does not go on through it. -/
theorem eq_virtualScript_of_reaches (h : o.Reaches hiddenPage Module.IsPassage neededScript) :
    o = virtualScript := by
  have hids : hiddenPage.ids.Nodup := by decide
  generalize hm : neededScript = m at h
  induction h with
  | @direct o m ho href =>
    subst hm
    have hid : o.id = "virtual" := by simpa [Module.SyncRefersTo, neededScript] using href
    exact ModuleGraph.eq_of_id_eq hids ho (by decide) hid
  | through _ _ hpass _ ih =>
    obtain rfl := ih hm
    exact absurd hpass.2 (by decide)

/-- The page lies outside of `subA` and needs the script by way of scripts,
and the script goes into `subA` all the same. -/
theorem subpackage_of_hidden_page :
    indexPage.IsOutside twoSubpackages "subA" ∧
      indexPage.Reaches hiddenPage (fun i => i.kind = .script) neededScript ∧
      (ofGraph twoSubpackages hiddenPage).placement? neededScript.id =
        some (.subpackage "subA") := by
  have hids : hiddenPage.ids.Nodup := by decide
  have houtside : indexPage.IsOutside twoSubpackages "subA" :=
    Walk.sight_eq_outside_iff.1 (by decide)
  have hvirtual : virtualScript.Reaches hiddenPage (fun i => i.kind = .script) neededScript :=
    .direct (by decide) (by decide)
  have hneeds : indexPage.Reaches hiddenPage (fun i => i.kind = .script) neededScript :=
    .through (by decide) (by decide) rfl hvirtual
  refine ⟨houtside, hneeds, ?_⟩
  refine (placed_under_iff_unreached rfl hids (by decide) rfl).2
    ⟨⟨by decide, by decide⟩, fun o hout hreach => ?_⟩
  obtain rfl := eq_virtualScript_of_reaches hreach
  exact absurd hout.1 (by decide)

end Placements

end SplitBuild
