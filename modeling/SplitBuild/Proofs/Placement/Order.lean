import SplitBuild.Proofs.Placement.Compat
import Mathlib.Data.List.Forall2
/-!
# The order of the input

Where ids and roots are distinct, no order of the input shows in the
placement of a module: not that of the modules, of the references to one,
of its consumers, or of the declared subpackages
(`placement?_of_sameUpToOrder`). The order does show in the reason of a
decision, since the walk stops at the first page outside that it meets; but
whether there is such a page is a property of the relation `Walk.Met`, and
this relation is the same in both graphs (`Walk.Met.of_counterparts`).
-/

namespace SplitBuild

variable {ctx ctx' : Context} {set set' : SubpackageSet} {g g' : ModuleGraph} {m n o : Module}
variable {root : String}

/-! ## The same up to order -/

/-- Two modules differ at most in the order of their references and
consumers. -/
structure Module.SameUpToOrder (m n : Module) : Prop where
  id_eq : m.id = n.id
  resource_eq : m.resource = n.resource
  kind_eq : m.kind = n.kind
  references_perm : m.references.Perm n.references
  consumers_perm : m.consumers.Perm n.consumers

/-- Two graphs hold the same modules up to order, and these in any order. -/
def ModuleGraph.SameUpToOrder (g g' : ModuleGraph) : Prop :=
  ∃ modules, g.modules.Perm modules ∧ List.Forall₂ Module.SameUpToOrder modules g'.modules

/-- Two contexts differ at most in the order of the declared subpackages. -/
structure Context.SameUpToOrder (ctx ctx' : Context) : Prop where
  eq_with : ctx' = { ctx with subpackages := ctx'.subpackages }
  members_perm : ctx.subpackages.members.Perm ctx'.subpackages.members

namespace Module.SameUpToOrder

theorem refl (m : Module) : m.SameUpToOrder m := ⟨rfl, rfl, rfl, .refl _, .refl _⟩

theorem symm (hmn : m.SameUpToOrder n) : n.SameUpToOrder m where
  id_eq := hmn.id_eq.symm
  resource_eq := hmn.resource_eq.symm
  kind_eq := hmn.kind_eq.symm
  references_perm := hmn.references_perm.symm
  consumers_perm := hmn.consumers_perm.symm

theorem isPageLevel_eq (hmn : m.SameUpToOrder n) : m.isPageLevel = n.isPageLevel := by
  rw [isPageLevel, isPageLevel, hmn.kind_eq]

theorem isPassage (hmn : m.SameUpToOrder n) (hm : m.IsPassage) : n.IsPassage :=
  ⟨hmn.isPageLevel_eq ▸ hm.1, hmn.resource_eq ▸ hm.2⟩

theorem isThirdPartyOnly_eq (hmn : m.SameUpToOrder n) :
    m.isThirdPartyOnly = n.isThirdPartyOnly := by
  rw [isThirdPartyOnly, isThirdPartyOnly, hmn.consumers_perm.isEmpty_eq, hmn.consumers_perm.all_eq]

/-- A bundle counts under the same name, also where it is the only one and
has none. -/
theorem usedAs {name : String} (hmn : m.SameUpToOrder n) (hm : m.UsedAs name) : n.UsedAs name := by
  have hperm := hmn.consumers_perm
  cases hm with
  | named hc => exact .named (hperm.subset hc)
  | alone hc =>
    rw [hc] at hperm
    rw [hmn.resource_eq]
    exact .alone (List.perm_singleton.1 hperm.symm)
  | unnamed hc hne =>
    refine .unnamed (hperm.subset hc) fun hn => hne ?_
    rw [hn] at hperm
    exact List.perm_singleton.1 hperm

theorem mem_consumerNames_iff {name : String} (hmn : m.SameUpToOrder n) :
    name ∈ m.consumerNames ↔ name ∈ n.consumerNames := by
  rw [Module.mem_consumerNames_iff, Module.mem_consumerNames_iff]
  exact and_congr_left fun _ => ⟨hmn.usedAs, hmn.symm.usedAs⟩

end Module.SameUpToOrder

/-! ## Declared subpackages -/

namespace SubpackageSet

/-- Declarations in another order declare the same subpackages in another
order. -/
theorem members_ofDeclared_perm {declared others : List Subpackage}
    (hperm : declared.Perm others) :
    (ofDeclared declared).members.Perm (ofDeclared others).members := hperm.filterMap trim?

/-- Where roots are distinct, a subpackage is known by its root. -/
theorem eq_of_root_eq (hroots : set.roots.Nodup) {s t : Subpackage} (hs : s ∈ set.members)
    (ht : t ∈ set.members) (hroot : s.root = t.root) : s = t :=
  List.inj_on_of_nodup_map hroots hs ht hroot

/-- **The deepest of the subpackages that a name lies under does not depend
on their order**: two of one length have one root. -/
theorem deepest?_filter_of_perm (hperm : set.members.Perm set'.members) (hroots : set.roots.Nodup)
    (counts : Subpackage → Bool) (name : String) :
    deepest? (set.members.filter fun s => counts s && Path.isUnder name s.root) =
      deepest? (set'.members.filter fun s => counts s && Path.isUnder name s.root) := by
  have hfilter := hperm.filter fun s => counts s && Path.isUnder name s.root
  cases hd : deepest? (set.members.filter fun s => counts s && Path.isUnder name s.root) with
  | none =>
    rw [deepest?_eq_none_iff.1 hd] at hfilter
    rw [eq_comm, deepest?_eq_none_iff]
    exact hfilter.nil_eq.symm
  | some s =>
    obtain ⟨hs, hsmax⟩ := mem_and_length_le_of_deepest? hd
    cases hd' : deepest? (set'.members.filter fun s => counts s && Path.isUnder name s.root) with
    | none =>
      rw [deepest?_eq_none_iff.1 hd'] at hfilter
      rw [hfilter.eq_nil] at hs
      cases hs
    | some t =>
      -- both have the longest root, and the name has one prefix of a length
      obtain ⟨ht, htmax⟩ := mem_and_length_le_of_deepest? hd'
      have hlen : s.root.length = t.root.length :=
        Nat.le_antisymm (htmax s (hfilter.subset hs)) (hsmax t (hfilter.symm.subset ht))
      replace ht := hfilter.symm.subset ht
      simp only [List.mem_filter, Bool.and_eq_true] at hs ht
      have hroot := Path.eq_of_isUnder_of_length_eq (set.trimmed s hs.1) (set.trimmed t ht.1)
        hs.2.2 ht.2.2 hlen
      rw [eq_of_root_eq hroots hs.1 ht.1 hroot]

theorem matching_of_perm (hperm : set.members.Perm set'.members) (hroots : set.roots.Nodup)
    (name : String) : set.matching name = set'.matching name := by
  rw [matching, matching]
  simpa only [Bool.true_and] using deepest?_filter_of_perm hperm hroots (fun _ => true) name

theorem matchingNormal_of_perm (hperm : set.members.Perm set'.members) (hroots : set.roots.Nodup)
    (name : String) : set.matchingNormal name = set'.matchingNormal name :=
  deepest?_filter_of_perm hperm hroots (fun s => !s.independent) name

end SubpackageSet

/-! ## Graphs -/

namespace ModuleGraph

/-- Every module of `g` has a counterpart in `g'`, which is the same up to
order. -/
def Counterparts (g g' : ModuleGraph) : Prop :=
  ∀ m ∈ g.modules, ∃ n ∈ g'.modules, m.SameUpToOrder n

namespace SameUpToOrder

theorem ids_perm (hgraph : g.SameUpToOrder g') : g.ids.Perm g'.ids := by
  obtain ⟨modules, hperm, hsame⟩ := hgraph
  have hids : modules.map (·.id) = g'.modules.map (·.id) := by
    rw [← List.forall₂_eq_eq_eq, List.forall₂_map_left_iff, List.forall₂_map_right_iff]
    exact hsame.imp fun _ _ hmn => hmn.id_eq
  rw [ids, ids, ← hids]
  exact hperm.map _

theorem counterparts (hgraph : g.SameUpToOrder g') : g.Counterparts g' := by
  obtain ⟨modules, hperm, hsame⟩ := hgraph
  intro m hm
  -- the counterpart stands where `m` does in the reordered list
  obtain ⟨i, hi, rfl⟩ := List.getElem_of_mem (hperm.subset hm)
  have hlen := hsame.length_eq
  exact ⟨g'.modules[i], List.getElem_mem (hlen ▸ hi), hsame.get hi (hlen ▸ hi)⟩

theorem counterparts_symm (hgraph : g.SameUpToOrder g') : g'.Counterparts g := by
  obtain ⟨modules, hperm, hsame⟩ := hgraph
  intro n hn
  obtain ⟨i, hi, rfl⟩ := List.getElem_of_mem hn
  have hlen := hsame.length_eq
  have hmem : modules[i] ∈ g.modules := hperm.symm.subset (List.getElem_mem (hlen ▸ hi))
  exact ⟨modules[i], hmem, (hsame.get (hlen ▸ hi) hi).symm⟩

end SameUpToOrder

/-- Where ids are distinct, an id stands for counterparts in both graphs. -/
theorem Counterparts.get? (hgraph : g.Counterparts g') (hids : g'.ids.Nodup) {id : String}
    (hm : g.get? id = some m) : ∃ n, g'.get? id = some n ∧ m.SameUpToOrder n := by
  obtain ⟨n, hn, hmn⟩ := hgraph m (mem_of_get? hm)
  refine ⟨n, ?_, hmn⟩
  rw [← id_of_get? hm, hmn.id_eq]
  exact get?_of_mem hids hn

/-- What refers to a module has a counterpart that refers to the
counterpart of the module. -/
theorem Counterparts.syncEdge (hgraph : g.Counterparts g') (hg : g.ids.Nodup) (hg' : g'.ids.Nodup)
    (hm : m ∈ g.modules) (he : g.SyncEdge o m.id) :
    ∃ p, g'.SyncEdge p m.id ∧ o.SameUpToOrder p := by
  obtain ⟨ho, href⟩ := (syncEdge_iff hg hm).1 he
  obtain ⟨n, hn, hmn⟩ := hgraph m hm
  obtain ⟨p, hp, hop⟩ := hgraph o ho
  have hpref : p.SyncRefersTo n := by
    rw [Module.SyncRefersTo, ← hop.id_eq]
    exact hmn.references_perm.subset href
  refine ⟨p, ?_, hop⟩
  rw [hmn.id_eq]
  exact (syncEdge_iff hg' hn).2 ⟨hp, hpref⟩

end ModuleGraph

namespace Walk

/-- **What is met in one graph has a counterpart that is met in the
other.** -/
theorem Met.of_counterparts (hgraph : g.Counterparts g') (hg : g.ids.Nodup) (hg' : g'.ids.Nodup)
    (hm : m ∈ g.modules) (ho : Met g m.id o) : ∃ p, Met g' m.id p ∧ o.SameUpToOrder p :=
  Met.of_edges (fun _ _ hop => hop.id_eq) (fun _ _ hop => hop.isPassage)
    (fun _ hi _ he => hgraph.syncEdge hg hg' hi he) hm ho

end Walk

/-! ## Placements -/

namespace Placement

/-- What the placements of two builds have in common that differ in order:
names belong to the same subpackages, ids are distinct, and every module
has a counterpart. -/
structure Reordered (ctx ctx' : Context) (g g' : ModuleGraph) : Prop where
  policy_eq : ctx.policy = ctx'.policy
  matching_eq : ∀ name, ctx.subpackages.matching name = ctx'.subpackages.matching name
  matchingNormal_eq : ∀ name,
    ctx.subpackages.matchingNormal name = ctx'.subpackages.matchingNormal name
  ids_left : g.ids.Nodup
  ids_right : g'.ids.Nodup
  counterparts : g.Counterparts g'
  counterparts_back : g'.Counterparts g

namespace Reordered

theorem of_sameUpToOrder (hctx : ctx.SameUpToOrder ctx') (hgraph : g.SameUpToOrder g')
    (hroots : ctx.subpackages.roots.Nodup) (hids : g.ids.Nodup) : Reordered ctx ctx' g g' where
  policy_eq := by rw [hctx.eq_with]; rfl
  matching_eq := SubpackageSet.matching_of_perm hctx.members_perm hroots
  matchingNormal_eq := SubpackageSet.matchingNormal_of_perm hctx.members_perm hroots
  ids_left := hids
  ids_right := hgraph.ids_perm.nodup_iff.1 hids
  counterparts := hgraph.counterparts
  counterparts_back := hgraph.counterparts_symm

theorem symm (hr : Reordered ctx ctx' g g') : Reordered ctx' ctx g' g where
  policy_eq := hr.policy_eq.symm
  matching_eq name := (hr.matching_eq name).symm
  matchingNormal_eq name := (hr.matchingNormal_eq name).symm
  ids_left := hr.ids_right
  ids_right := hr.ids_left
  counterparts := hr.counterparts_back
  counterparts_back := hr.counterparts

theorem isOutside (hr : Reordered ctx ctx' g g') (hmn : m.SameUpToOrder n)
    (hm : m.IsOutside ctx root) : n.IsOutside ctx' root := by
  obtain ⟨hlevel, resource, hresource, hunder, hnormal⟩ := hm
  refine ⟨hmn.isPageLevel_eq ▸ hlevel, resource, hmn.resource_eq ▸ hresource, hunder, ?_⟩
  rwa [← hr.matching_eq]

/-- The walk may stop at another page outside, but it does stop. -/
theorem outsider?_eq_none (hr : Reordered ctx ctx' g g') (hn : n ∈ g'.modules)
    (hmn : m.SameUpToOrder n) (hnone : Walk.outsider? ctx g m root = none) :
    Walk.outsider? ctx' g' n root = none := by
  rw [Walk.outsider?_eq_none_iff] at hnone ⊢
  -- a page that is met from `n` would be one that is met from `m`
  intro o ho hout
  obtain ⟨p, hp, hop⟩ := ho.of_counterparts hr.counterparts_back hr.ids_right hr.ids_left hn
  rw [← hmn.id_eq] at hp
  exact hnone p hp (hr.symm.isOutside hop hout)

theorem consumerRoots_eq_singleton (hr : Reordered ctx ctx' g g') (hmn : m.SameUpToOrder n)
    (hroots : consumerRoots ctx m = [root]) : consumerRoots ctx' n = [root] := by
  -- the roots are sorted, so only which names occur counts
  rw [consumerRoots, sortedNames_eq_singleton_iff] at hroots ⊢
  simpa only [List.mem_filterMap, hmn.mem_consumerNames_iff, hr.matchingNormal_eq] using hroots

theorem placeCompat_eq_subpackage (hr : Reordered ctx ctx' g g') (hn : n ∈ g'.modules)
    (hmn : m.SameUpToOrder n) (hm : (placeCompat ctx g m).placement = .subpackage root) :
    (placeCompat ctx' g' n).placement = .subpackage root := by
  rw [placeCompat_eq_subpackage_iff] at hm ⊢
  obtain ⟨hroots, hmatched, hwalk⟩ := hm
  refine ⟨hr.consumerRoots_eq_singleton hmn hroots, fun name hname => ?_,
    hr.outsider?_eq_none hn hmn hwalk⟩
  rw [← hr.matching_eq]
  exact hmatched name (hmn.mem_consumerNames_iff.2 hname)

theorem placeCompat_placement_eq (hr : Reordered ctx ctx' g g') (hm : m ∈ g.modules)
    (hn : n ∈ g'.modules) (hmn : m.SameUpToOrder n) :
    (placeCompat ctx g m).placement = (placeCompat ctx' g' n).placement := by
  -- a subpackage in either graph is one in the other; what is left is main
  rcases placeCompat_main_or_subpackage ctx g m with hmain | ⟨r, hsub⟩
  · rcases placeCompat_main_or_subpackage ctx' g' n with hmain' | ⟨r, hsub'⟩
    · rw [hmain, hmain']
    · rw [hsub', hr.symm.placeCompat_eq_subpackage hm hmn.symm hsub']
  · rw [hsub, hr.placeCompat_eq_subpackage hn hmn hsub]

theorem placeStrict_eq (hr : Reordered ctx ctx' g g') (hmn : m.SameUpToOrder n) :
    placeStrict ctx m = placeStrict ctx' n := by
  have hmatching : ctx.subpackages.matching = ctx'.subpackages.matching := funext hr.matching_eq
  rw [placeStrict, placeStrict, hmn.resource_eq, hmatching]

/-- **Counterparts are placed alike.** -/
theorem placement_eq (hr : Reordered ctx ctx' g g') (hm : m ∈ g.modules) (hn : n ∈ g'.modules)
    (hmn : m.SameUpToOrder n) :
    (decide ctx g m).placement = (decide ctx' g' n).placement := by
  unfold decide
  rw [hmn.isThirdPartyOnly_eq, hmn.kind_eq, hr.policy_eq]
  split
  · rfl
  · split
    · rfl
    · cases ctx'.policy with
      | strict => exact congrArg Decision.placement (hr.placeStrict_eq hmn)
      | compat => exact hr.placeCompat_placement_eq hm hn hmn

end Reordered

end Placement

namespace Placements

/-- **The placement of an id does not depend on the order of modules,
references, consumers and declarations.** -/
theorem placement?_of_sameUpToOrder (hctx : ctx.SameUpToOrder ctx') (hgraph : g.SameUpToOrder g')
    (hroots : ctx.subpackages.roots.Nodup) (hids : g.ids.Nodup) (id : String) :
    (ofGraph ctx g).placement? id = (ofGraph ctx' g').placement? id := by
  have hr := Placement.Reordered.of_sameUpToOrder hctx hgraph hroots hids
  rw [placement?_ofGraph, placement?_ofGraph]
  cases hm : g.get? id with
  | some m =>
    obtain ⟨n, hn, hmn⟩ := hr.counterparts.get? hr.ids_right hm
    have hplaced := hr.placement_eq (ModuleGraph.mem_of_get? hm) (ModuleGraph.mem_of_get? hn) hmn
    rw [hn, Option.map_some, Option.map_some, hplaced]
  | none =>
    cases hn : g'.get? id with
    | some n =>
      obtain ⟨m, hm', -⟩ := hr.counterparts_back.get? hr.ids_left hn
      rw [hm] at hm'
      cases hm'
    | none => rfl

/-! Two pages of the main package refer to one script that two pages of
`subA` use. The walk stops at the page that refers last. -/

/-- The script with the reference from `pages/b.vue` last. -/
def lastFromB : Module where
  id := "subA/only.js"
  resource := some "subA/only.js"
  kind := .script
  references := [⟨"pages/a.vue", .sync⟩, ⟨"pages/b.vue", .sync⟩]
  consumers := [⟨some "subA/page"⟩, ⟨some "subA/list"⟩]

/-- The script with the reference from `pages/a.vue` last. -/
def lastFromA : Module :=
  { lastFromB with
    references := [⟨"pages/b.vue", .sync⟩, ⟨"pages/a.vue", .sync⟩]
    consumers := [⟨some "subA/list"⟩, ⟨some "subA/page"⟩] }

/-- The pages and a script, in this order. -/
def pagesFirst (m : Module) : ModuleGraph where
  modules := [.ofSource "pages/a.vue" .component, .ofSource "pages/b.vue" .component, m]

/-- The script and the pages, in this order. -/
def pagesLast (m : Module) : ModuleGraph where
  modules := [m, .ofSource "pages/b.vue" .component, .ofSource "pages/a.vue" .component]

/-- The subpackages of `twoSubpackages` in the other order. -/
def swappedSubpackages : Context :=
  { Context.default with subpackages := .ofDeclared [.ofRoot "subB", .ofRoot "subA"] }

/-- The walks stop at different pages, and the script is placed alike. -/
theorem placement?_of_last_reference :
    Walk.outsider? twoSubpackages (pagesFirst lastFromB) lastFromB "subA" = some "pages/b.vue" ∧
      Walk.outsider? swappedSubpackages (pagesLast lastFromA) lastFromA "subA" =
        some "pages/a.vue" ∧
      (ofGraph twoSubpackages (pagesFirst lastFromB)).placement? "subA/only.js" =
        (ofGraph swappedSubpackages (pagesLast lastFromA)).placement? "subA/only.js" := by
  have hb : Walk.look twoSubpackages "subA" ((pagesFirst lastFromB).incoming "subA/only.js")
      ⟨["subA/only.js"], []⟩ = .error "pages/b.vue" := by
    rw [ModuleGraph.incoming_eq]
    decide
  have ha : Walk.look swappedSubpackages "subA" ((pagesLast lastFromA).incoming "subA/only.js")
      ⟨["subA/only.js"], []⟩ = .error "pages/a.vue" := by
    rw [ModuleGraph.incoming_eq]
    decide
  have hctx : twoSubpackages.SameUpToOrder swappedSubpackages :=
    ⟨rfl, SubpackageSet.members_ofDeclared_perm (.swap _ _ [])⟩
  have hscript : lastFromB.SameUpToOrder lastFromA :=
    ⟨rfl, rfl, rfl, .swap _ _ [], .swap _ _ []⟩
  have hgraph : (pagesFirst lastFromB).SameUpToOrder (pagesLast lastFromA) :=
    ⟨_, (List.reverse_perm _).symm, .cons hscript (.cons (.refl _) (.cons (.refl _) .nil))⟩
  exact ⟨Walk.run_of_look_error hb, Walk.run_of_look_error ha,
    placement?_of_sameUpToOrder hctx hgraph (by decide) (by decide) "subA/only.js"⟩

end Placements

end SplitBuild
