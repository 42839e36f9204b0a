import SplitBuild.Proofs.Placement.Compat
import Mathlib.Data.List.Forall2
/-!
# Fewer and more references

Two graphs that differ in references alone are compared. Asynchronous ones
do not count: `syncOnly` is a graph without them, and the walk takes the
same steps there, one look after the other (`run_syncOnly`), so that
decisions keep their reasons. With more synchronous references more is met
(`Met.of_drops`), and the only thing that follows for a module is that it
may leave its subpackage for the main package (`decide_of_drops`).
-/

namespace SplitBuild

variable {ctx : Context} {g g' : ModuleGraph} {m n o : Module} {root : String}
variable {kind : ReferenceKind}

/-! ## Fewer references -/

/-- `n` is `m` without some of the references of one kind. -/
structure Module.Drops (kind : ReferenceKind) (m n : Module) : Prop where
  eq_with : n = { m with references := n.references }
  references_sublist : n.references.Sublist m.references
  others_eq : (n.references.filter fun r => r.kind ≠ kind) =
    m.references.filter fun r => r.kind ≠ kind

/-- `g'` is `g` without some of the references of one kind. -/
def ModuleGraph.Drops (kind : ReferenceKind) (g g' : ModuleGraph) : Prop :=
  List.Forall₂ (Module.Drops kind) g.modules g'.modules

namespace Module.Drops

theorem refl (kind : ReferenceKind) (m : Module) : m.Drops kind m := ⟨rfl, .refl _, rfl⟩

theorem id_eq (h : m.Drops kind n) : n.id = m.id := by rw [h.eq_with]

theorem isPassage (h : m.Drops kind n) (hn : n.IsPassage) : m.IsPassage := by
  rw [h.eq_with] at hn
  exact hn

theorem isOutside (h : m.Drops kind n) (hn : n.IsOutside ctx root) : m.IsOutside ctx root := by
  rw [h.eq_with] at hn
  exact hn

theorem isThirdPartyOnly_eq (h : m.Drops kind n) : n.isThirdPartyOnly = m.isThirdPartyOnly := by
  rw [h.eq_with]
  rfl

theorem consumerNames_eq (h : m.Drops kind n) : n.consumerNames = m.consumerNames := by
  rw [h.eq_with]
  rfl

end Module.Drops

/-! ## Asynchronous references -/

/-- A module without the asynchronous references that it holds. -/
def Module.syncOnly (m : Module) : Module :=
  { m with references := m.references.filter fun r => r.kind = .sync }

/-- A graph without asynchronous references. -/
def ModuleGraph.syncOnly (g : ModuleGraph) : ModuleGraph := ⟨g.modules.map Module.syncOnly⟩

/-- An edge as it stands in a graph without asynchronous references. -/
def Edge.syncOnly (e : Edge) : Edge := { e with source := e.source.syncOnly }

theorem Module.Drops.syncOnly_eq (h : m.Drops .async n) : n.syncOnly = m.syncOnly := by
  have hsync : (n.references.filter fun r => r.kind = .sync) =
      m.references.filter fun r => r.kind = .sync := by
    have hkind : ∀ k : ReferenceKind, decide (k = .sync) = decide (k ≠ .async) := by
      intro k
      cases k <;> rfl
    simpa only [hkind] using h.others_eq
  rw [Module.syncOnly, hsync, h.eq_with]
  rfl

namespace ModuleGraph

theorem Drops.syncOnly_eq (h : g.Drops .async g') : g'.syncOnly = g.syncOnly := by
  have hmodules : g.modules.map Module.syncOnly = g'.modules.map Module.syncOnly := by
    rw [← List.forall₂_eq_eq_eq, List.forall₂_map_left_iff, List.forall₂_map_right_iff]
    exact List.Forall₂.imp (fun _ _ hmn => hmn.syncOnly_eq.symm) h
  rw [syncOnly, syncOnly, hmodules]

theorem get?_syncOnly (g : ModuleGraph) (id : String) :
    g.syncOnly.get? id = (g.get? id).map Module.syncOnly := by
  rw [get?_eq, get?_eq, Module.last?, Module.last?, syncOnly, ← List.map_reverse, List.find?_map]
  rfl

theorem references_syncOnly (g : ModuleGraph) (id : String) :
    g.syncOnly.references id = (g.references id).filter fun r => r.kind = .sync := by
  rw [references, references, syncOnly, List.filter_map, List.flatMap_map, List.filter_flatMap]
  rfl

/-- The edges to an id are the synchronous ones, in their order. -/
theorem incoming_syncOnly (g : ModuleGraph) (id : String) :
    g.syncOnly.incoming id =
      ((g.incoming id).filter fun e => e.kind = .sync).map Edge.syncOnly := by
  rw [incoming_eq, incoming_eq, references_syncOnly, List.filter_reverse, List.map_reverse,
    List.filterMap_filter, List.filter_filterMap, List.map_filterMap]
  congr 2
  funext r
  rw [edge?, edge?, ← get?_eq, ← get?_eq, get?_syncOnly]
  cases g.get? r.origin with
  | none => simp
  | some m =>
    rw [Option.map_some, Option.map_some, Option.map_some, Option.filter_some]
    by_cases hk : r.kind = .sync
    · simp [hk, Edge.syncOnly]
    · simp [hk]

end ModuleGraph

namespace Walk

/-- A look passes over the edges that are not there, and sees of the others
what it saw. -/
theorem look_syncOnly (es : List Edge) (f : Frontier) :
    look ctx root ((es.filter fun e => e.kind = .sync).map Edge.syncOnly) f =
      look ctx root es f := by
  induction es generalizing f with
  | nil => rfl
  | cons e es ih =>
    cases hk : e.kind with
    | async => rw [List.filter_cons_of_neg (by simp [hk]), ih, look, if_pos (.inl hk)]
    | sync =>
      rw [List.filter_cons_of_pos (by simp [hk]), List.map_cons, look, look]
      simp only [ih]
      rfl

/-- **The walk takes the same steps without the asynchronous references.** -/
theorem run_syncOnly (f : Frontier) : run ctx g.syncOnly root f = run ctx g root f := by
  fun_induction Walk.run ctx g root f with
  | case1 seen => rw [run]
  | case2 seen id stack found hlook =>
    refine run_of_look_error ?_
    rw [ModuleGraph.incoming_syncOnly, look_syncOnly]
    exact hlook
  | case3 seen id stack next hlook ih =>
    rw [← ih]
    refine run_of_look_ok ?_
    rw [ModuleGraph.incoming_syncOnly, look_syncOnly]
    exact hlook

end Walk

namespace Placement

theorem decide_syncOnly (ctx : Context) (g : ModuleGraph) (m : Module) :
    decide ctx g.syncOnly m.syncOnly = decide ctx g m := by
  have hwalk : ∀ root, Walk.outsider? ctx g.syncOnly m.syncOnly root = Walk.outsider? ctx g m root :=
    fun root => Walk.run_syncOnly _
  have hunder : ∀ root, placeUnder ctx g.syncOnly m.syncOnly root = placeUnder ctx g m root := by
    intro root
    rw [placeUnder, hwalk]
    rfl
  have hcompat : placeCompat ctx g.syncOnly m.syncOnly = placeCompat ctx g m := by
    simp only [placeCompat, hunder]
    rfl
  rw [decide, hcompat]
  rfl

end Placement

namespace Placements

/-- **Decisions do not depend on asynchronous references**, nor do their
reasons. -/
theorem ofGraph_syncOnly (ctx : Context) (g : ModuleGraph) :
    ofGraph ctx g.syncOnly = ofGraph ctx g := by
  have hentry : ((fun m => (m.id, Placement.decide ctx g.syncOnly m)) ∘ Module.syncOnly) =
      fun m => (m.id, Placement.decide ctx g m) :=
    funext fun m => congrArg (Prod.mk m.id) (Placement.decide_syncOnly ctx g m)
  have hmodules : g.syncOnly.modules = g.modules.map Module.syncOnly := rfl
  rw [ofGraph, ofGraph, hmodules, List.map_map, hentry]

end Placements

/-! ## Synchronous references -/

namespace ModuleGraph

/-- An id stands for modules that differ in references alone. -/
theorem Drops.get? (h : g.Drops kind g') (id : String) :
    Option.Rel (Module.Drops kind) (g.get? id) (g'.get? id) := by
  have hrev := List.forall₂_reverse_iff.2 h
  rw [ModuleGraph.get?_eq, ModuleGraph.get?_eq, Module.last?, Module.last?]
  generalize g.modules.reverse = modules, g'.modules.reverse = modules' at hrev
  induction hrev with
  | nil => exact .none
  | @cons m n _ _ hmn _ ih =>
    rw [List.find?_cons, List.find?_cons, hmn.id_eq]
    cases decide (m.id = id) with
    | true => exact .some hmn
    | false => exact ih

/-- No reference to an id comes in anew. -/
theorem Drops.references_sublist (h : g.Drops kind g') (id : String) :
    (g'.references id).Sublist (g.references id) := by
  rw [references, references]
  rw [Drops] at h
  generalize g.modules = modules, g'.modules = modules' at h
  induction h with
  | nil => exact .refl _
  | @cons m n _ _ hmn _ ih =>
    by_cases hid : m.id = id
    · have hnid : n.id = id := hmn.id_eq.trans hid
      rw [List.filter_cons_of_pos (by simpa using hnid), List.filter_cons_of_pos (by simpa using hid),
        List.flatMap_cons, List.flatMap_cons]
      exact hmn.references_sublist.append ih
    · have hnid : n.id ≠ id := fun hnid => hid (hmn.id_eq.symm.trans hnid)
      rw [List.filter_cons_of_neg (by simpa using hnid), List.filter_cons_of_neg (by simpa using hid)]
      exact ih

/-- Every edge was there, from the module with more references. -/
theorem Drops.exists_syncEdge (h : g.Drops kind g') {id : String} (he : g'.SyncEdge o id) :
    ∃ p, g.SyncEdge p id ∧ p.Drops kind o := by
  obtain ⟨e, he, hk, rfl⟩ := he
  obtain ⟨r, hr, horigin, hrk⟩ := mem_incoming_iff.1 he
  have hrel := h.get? r.origin
  rw [horigin] at hrel
  cases hp : g.get? r.origin with
  | none =>
    rw [hp] at hrel
    cases hrel
  | some p =>
    rw [hp] at hrel
    obtain ⟨hpo⟩ := hrel
    have hedge : (⟨p, r.kind⟩ : Edge) ∈ g.incoming id :=
      mem_incoming_iff.2 ⟨r, (h.references_sublist id).subset hr, hp, rfl⟩
    exact ⟨p, ⟨_, hedge, hrk.trans hk, rfl⟩, hpo⟩

end ModuleGraph

namespace Walk

/-- **What is met where there are fewer references is met where there are
more.** -/
theorem Met.of_drops (h : g.Drops kind g') (hn : n ∈ g'.modules) (ho : Met g' n.id o) :
    ∃ p, Met g n.id p ∧ p.Drops kind o :=
  Met.of_edges (R := fun o p => p.Drops kind o) (fun _ _ hpo => hpo.id_eq)
    (fun _ _ hpo => hpo.isPassage) (fun _ _ _ he => h.exists_syncEdge he) hn ho

theorem outsider?_eq_none_of_drops (h : g.Drops kind g') (hmn : m.Drops kind n)
    (hn : n ∈ g'.modules) (hnone : outsider? ctx g m root = none) :
    outsider? ctx g' n root = none := by
  rw [outsider?_eq_none_iff] at hnone ⊢
  intro o ho hout
  obtain ⟨p, hp, hpo⟩ := ho.of_drops h hn
  rw [hmn.id_eq] at hp
  exact hnone p hp (hpo.isOutside hout)

end Walk

namespace Placement

/-- A subpackage that holds a module keeps it where references are dropped:
the consumers are the same, and the walk finds no more. -/
theorem placeCompat_eq_subpackage_of_drops (h : g.Drops kind g') (hmn : m.Drops kind n)
    (hn : n ∈ g'.modules) (hm : (placeCompat ctx g m).placement = .subpackage root) :
    (placeCompat ctx g' n).placement = .subpackage root := by
  obtain ⟨hroots, hmatched, hwalk⟩ := placeCompat_eq_subpackage_iff.1 hm
  have hnames := hmn.consumerNames_eq
  refine placeCompat_eq_subpackage_iff.2 ⟨?_, ?_, Walk.outsider?_eq_none_of_drops h hmn hn hwalk⟩
  · rwa [consumerRoots, hnames]
  · rwa [hnames]

/-- **More references only promote.** -/
theorem decide_of_drops (hpolicy : ctx.policy = .compat) (h : g.Drops kind g')
    (hmn : m.Drops kind n) (hn : n ∈ g'.modules) :
    (decide ctx g m).placement = (decide ctx g' n).placement ∨
      ∃ r, (decide ctx g' n).placement = .subpackage r ∧ (decide ctx g m).placement = .main := by
  have hthird := hmn.isThirdPartyOnly_eq
  have hkind : n.kind = m.kind := by rw [hmn.eq_with]
  by_cases hplaced : m.isThirdPartyOnly = false ∧ m.kind = .script
  · rw [decide_eq_placeCompat hpolicy hplaced.1 hplaced.2,
      decide_eq_placeCompat hpolicy (hthird.trans hplaced.1) (hkind.trans hplaced.2)]
    rcases placeCompat_main_or_subpackage ctx g m with hmain | ⟨r, hsub⟩
    · rcases placeCompat_main_or_subpackage ctx g' n with hmain' | ⟨r, hsub'⟩
      · exact .inl (hmain.trans hmain'.symm)
      · exact .inr ⟨r, hsub', hmain⟩
    · exact .inl (hsub.trans (placeCompat_eq_subpackage_of_drops h hmn hn hsub).symm)
  · -- what is not placed stays where it is in both graphs
    refine .inl ?_
    rw [decide, decide, hthird, hkind]
    cases hm : m.isThirdPartyOnly with
    | true => rfl
    | false =>
      have hscript : m.kind ≠ .script := fun hs => hplaced ⟨hm, hs⟩
      simp [hscript]

end Placement

namespace Placements

/-- **Asynchronous references do not count, and synchronous ones only
promote.** Without some asynchronous references every decision is the same,
reason and all. With more synchronous ones a module stays where it was,
unless it leaves a subpackage for the main package. -/
theorem ofGraph_eq_and_promoted (ctx : Context) :
    (∀ g g' : ModuleGraph, g.Drops .async g' → ofGraph ctx g' = ofGraph ctx g) ∧
    (ctx.policy = .compat → ∀ g g' : ModuleGraph, g'.Drops .sync g → ∀ id,
      (ofGraph ctx g').placement? id = (ofGraph ctx g).placement? id ∨
        ∃ r, (ofGraph ctx g).placement? id = some (.subpackage r) ∧
          (ofGraph ctx g').placement? id = some .main) := by
  refine ⟨fun g g' h => ?_, fun hpolicy g g' h id => ?_⟩
  · rw [← ofGraph_syncOnly ctx g', h.syncOnly_eq, ofGraph_syncOnly]
  · rw [placement?_ofGraph, placement?_ofGraph]
    have hrel := h.get? id
    cases hm : g.get? id with
    | none =>
      rw [hm] at hrel
      generalize g'.get? id = found at hrel
      cases hrel
      exact .inl rfl
    | some m =>
      rw [hm] at hrel
      generalize g'.get? id = found at hrel
      obtain ⟨hnm⟩ := hrel
      simp only [Option.map_some, Option.some.injEq]
      exact Placement.decide_of_drops hpolicy h hnm (ModuleGraph.mem_of_get? hm)

/-! The page of the main package may refer to the first script or not. -/

/-- The script without the reference from the page of the main package. -/
def quietScript : Module :=
  { farScript with
    id := "subA/near.js"
    resource := some "subA/near.js"
    references := [⟨"subA/page.vue", .sync⟩, ⟨"subA/far.js", .sync⟩] }

/-- The two pages and the two scripts, without that reference. -/
def quietCycle : ModuleGraph where
  modules := [.ofSource "pages/index.vue" .component, .ofSource "subA/page.vue" .component,
    quietScript, farScript]

/-- An asynchronous reference from the page changes nothing, and a
synchronous one promotes the script. -/
theorem quietScript_promoted :
    (scriptCycle .async).Drops .async quietCycle ∧ (scriptCycle .sync).Drops .sync quietCycle ∧
      ofGraph twoSubpackages quietCycle = ofGraph twoSubpackages (scriptCycle .async) ∧
      (ofGraph twoSubpackages quietCycle).placement? quietScript.id = some (.subpackage "subA") ∧
      (ofGraph twoSubpackages (scriptCycle .sync)).placement? quietScript.id = some .main := by
  have hdrops : ∀ kind, (scriptCycle kind).Drops kind quietCycle := by
    intro kind
    have hnear : (nearScript kind).Drops kind quietScript := by
      refine ⟨rfl, .cons _ (.refl _), ?_⟩
      cases kind <;> rfl
    exact .cons (.refl kind _) (.cons (.refl kind _) (.cons hnear (.cons (.refl kind _) .nil)))
  have hquiet : quietScript ∈ quietCycle.modules := by decide
  have hnear : nearScript .sync ∈ (scriptCycle .sync).modules := by decide
  have hlook : Walk.look twoSubpackages "subA" (quietCycle.incoming "subA/near.js")
      ⟨["subA/near.js"], []⟩ =
        .ok ⟨["subA/page.vue", "subA/far.js", "subA/near.js"], ["subA/far.js"]⟩ := by
    rw [ModuleGraph.incoming_eq]
    decide
  have hlook' : Walk.look twoSubpackages "subA" (quietCycle.incoming "subA/far.js")
      ⟨["subA/page.vue", "subA/far.js", "subA/near.js"], []⟩ =
        .ok ⟨["subA/page.vue", "subA/far.js", "subA/near.js"], []⟩ := by
    rw [ModuleGraph.incoming_eq]
    decide
  have hwalk : Walk.outsider? twoSubpackages quietCycle quietScript "subA" = none := by
    rw [Walk.outsider?, quietScript, Walk.run_of_look_ok hlook, Walk.run_of_look_ok hlook', Walk.run]
  have hsub : (ofGraph twoSubpackages quietCycle).placement? quietScript.id =
      some (.subpackage "subA") := by
    rw [placement?_of_mem (by decide) hquiet, Placement.decide_eq_placeCompat rfl (by decide) rfl]
    exact congrArg some (Placement.placeCompat_eq_subpackage_iff.2 ⟨by decide, by decide, hwalk⟩)
  have hfound : Walk.outsider? twoSubpackages (scriptCycle .sync) (nearScript .sync) "subA" =
      some "pages/index.vue" := by
    refine Walk.run_of_look_error ?_
    rw [ModuleGraph.incoming_eq]
    decide
  obtain ⟨hasync, hsync⟩ := ofGraph_eq_and_promoted twoSubpackages
  refine ⟨hdrops .async, hdrops .sync, hasync _ _ (hdrops .async), hsub, ?_⟩
  rcases hsync rfl _ _ (hdrops .sync) quietScript.id with hsame | ⟨-, -, hmain⟩
  · -- the script cannot stay in `subA`, since the walk finds the page
    rw [hsub, show quietScript.id = (nearScript .sync).id from rfl, placement?_of_mem (by decide) hnear,
      Placement.decide_eq_placeCompat rfl (by decide) rfl, Option.some.injEq,
      Placement.placeCompat_eq_subpackage_iff, hfound] at hsame
    exact absurd hsame.2.2 (by simp)
  · exact hmain

end Placements

end SplitBuild
