import SplitBuild.Module.Graph
import Mathlib.Data.List.Basic
/-!
# What the adjacency holds

The adjacency of a list of modules is built in two passes. The first one
gives every module a node and leaves every id at the node of the last
module that has it (`Numbered`); the second one adds the references, each
as an arc between the nodes of two ids (`Extends`). No pass points at
nothing (`exists_build`), and what is looked up afterwards is read off the
list: the last module with an id, and **the references that the modules
with an id hold, the latest first** (`Built.get?_eq`, `Built.incoming_eq`).
Of directed graphs nothing is used but their laws.
-/

namespace SplitBuild

open ArcGraph

/-! ## What a list of modules says -/

/-- The last module with an id. -/
def Module.last? (modules : List Module) (id : String) : Option Module :=
  modules.reverse.find? fun m => m.id = id

namespace ModuleGraph

/-- The references that the modules with an id hold, in order. -/
def references (g : ModuleGraph) (id : String) : List Reference :=
  (g.modules.filter fun m => m.id = id).flatMap (·.references)

/-- The edge of a reference, from the last module that has its origin as
its id; none where there is no such module. -/
def edge? (g : ModuleGraph) (r : Reference) : Option Edge :=
  (Module.last? g.modules r.origin).map fun m => ⟨m, r.kind⟩

theorem references_eq_nil {g : ModuleGraph} {id : String} (hid : id ∉ g.ids) :
    g.references id = [] := by
  have hnone : g.modules.filter (fun m => m.id = id) = [] := by
    rw [List.filter_eq_nil_iff]
    intro m hm hmid
    exact hid (List.mem_map.2 ⟨m, hm, of_decide_eq_true hmid⟩)
  rw [references, hnone, List.flatMap_nil]

end ModuleGraph

namespace Module

variable {modules : List Module} {m : Module} {id : String}

theorem last?_concat :
    last? (modules ++ [m]) id = if m.id = id then some m else last? modules id := by
  rw [last?, List.reverse_append, List.reverse_singleton, List.singleton_append, List.find?_cons]
  by_cases h : m.id = id
  · simp [h]
  · simp [h, last?]

theorem id_of_last? (h : last? modules id = some m) : m.id = id := by
  simpa using List.find?_some h

theorem mem_of_last? (h : last? modules id = some m) : m ∈ modules :=
  List.mem_reverse.1 (List.mem_of_find?_eq_some h)

theorem last?_eq_none_iff : last? modules id = none ↔ ∀ m ∈ modules, m.id ≠ id := by
  simp [last?]

end Module

namespace Adjacency

variable {G : Type} [ArcGraph G Nat ReferenceKind]
variable {x y z : Adjacency G} {modules : List Module} {m : Module} {id id' : String} {n : Nat}

/-! ## Nodes -/

/-- Every module has a node, where its place stands, and an id names the
node of the last module that has it. -/
structure Numbered (x : Adjacency G) (modules : List Module) : Prop where
  nodes_eq : nodes x.graph = List.range modules.length
  lt_length : ∀ {id : String} {n : Nat}, x.nodeOf[id]? = some n → n < modules.length
  last?_eq : ∀ id : String, Module.last? modules id = x.nodeOf[id]?.bind fun n => modules[n]?

/-- The module at the node that an id names is the last one with the id. -/
theorem Numbered.exists_last? (h : Numbered x modules) (hn : x.nodeOf[id]? = some n) :
    ∃ m, Module.last? modules id = some m ∧ modules[n]? = some m := by
  have hlt := h.lt_length hn
  have hm := List.getElem?_eq_getElem hlt
  refine ⟨modules[n], ?_, hm⟩
  rw [h.last?_eq, hn, Option.bind_some, hm]

/-- Two ids do not name one node. -/
theorem Numbered.id_eq (h : Numbered x modules) (hn : x.nodeOf[id]? = some n)
    (hn' : x.nodeOf[id']? = some n) : id = id' := by
  obtain ⟨m, hlast, hm⟩ := h.exists_last? hn
  obtain ⟨m', hlast', hm'⟩ := h.exists_last? hn'
  obtain rfl : m = m' := Option.some.inj (hm.symm.trans hm')
  exact (Module.id_of_last? hlast).symm.trans (Module.id_of_last? hlast')

/-- The id of a module names a node. -/
theorem Numbered.exists_node (h : Numbered x modules) (hm : m ∈ modules) :
    ∃ n, x.nodeOf[m.id]? = some n := by
  rw [← Option.isSome_iff_exists, Option.isSome_iff_ne_none]
  intro hnone
  have hlast := h.last?_eq m.id
  rw [hnone, Option.bind_none, Module.last?_eq_none_iff] at hlast
  exact hlast m hm rfl

/-! ## Arcs -/

/-- The arc of a reference to a node; none where its origin names no node. -/
def arcOf? (nodeOf : Std.HashMap String Nat) (target : Nat) (r : Reference) :
    Option (Arc ReferenceKind) :=
  nodeOf[r.origin]?.map fun origin => ⟨origin, target, r.kind⟩

/-- The arcs of the references that a module holds. -/
def arcsOf (nodeOf : Std.HashMap String Nat) (m : Module) : List (Arc ReferenceKind) :=
  match nodeOf[m.id]? with
  | none => []
  | some target => m.references.filterMap (arcOf? nodeOf target)

/-- The arcs of a module lead to the node of its id. -/
theorem target_of_mem_arcsOf {nodeOf : Std.HashMap String Nat} {a : Arc ReferenceKind}
    (ha : a ∈ arcsOf nodeOf m) : nodeOf[m.id]? = some a.target := by
  rw [arcsOf] at ha
  cases hm : nodeOf[m.id]? with
  | none =>
    rw [hm] at ha
    cases ha
  | some target =>
    rw [hm] at ha
    obtain ⟨r, -, hr⟩ := List.mem_filterMap.1 ha
    obtain ⟨origin, -, rfl⟩ := Option.map_eq_some_iff.1 hr
    rfl

/-- `y` is `x` with some arcs more, in their order. -/
structure Extends (x : Adjacency G) (new : List (Arc ReferenceKind)) (y : Adjacency G) : Prop where
  nodeOf_eq : y.nodeOf = x.nodeOf
  nodes_eq : nodes y.graph = nodes x.graph
  arcs_eq : arcs y.graph = arcs x.graph ++ new

theorem Extends.refl (x : Adjacency G) : Extends x [] x := ⟨rfl, rfl, (List.append_nil _).symm⟩

theorem Extends.trans {new new' : List (Arc ReferenceKind)} (h : Extends x new y)
    (h' : Extends y new' z) : Extends x (new ++ new') z where
  nodeOf_eq := h'.nodeOf_eq.trans h.nodeOf_eq
  nodes_eq := h'.nodes_eq.trans h.nodes_eq
  arcs_eq := by rw [h'.arcs_eq, h.arcs_eq, List.append_assoc]

/-- **A pass adds what its steps add**, where every step goes through from
any extension. -/
theorem exists_foldlM {α : Type} {step : Adjacency G → α → Except IndexFault (Adjacency G)}
    {new : α → List (Arc ReferenceKind)} {l : List α}
    (h : ∀ a ∈ l, ∀ before y, Extends x before y → ∃ z, step y a = .ok z ∧ Extends y (new a) z) :
    ∃ y, l.foldlM step x = .ok y ∧ Extends x (l.flatMap new) y := by
  induction l generalizing x with
  | nil => exact ⟨x, rfl, .refl x⟩
  | cons a l ih =>
    obtain ⟨y, hstep, hy⟩ := h a List.mem_cons_self [] x (.refl x)
    obtain ⟨z, hrest, hz⟩ := @ih y fun b hb before z hz =>
      h b (List.mem_cons_of_mem _ hb) _ z (hy.trans hz)
    refine ⟨z, ?_, hy.trans hz⟩
    rw [List.foldlM_cons, hstep]
    exact hrest

/-- Every node that an id names is there. -/
def InRange (x : Adjacency G) : Prop :=
  ∀ (id : String) (n : Nat), x.nodeOf[id]? = some n → n < (nodes x.graph).length

theorem Extends.inRange {new : List (Arc ReferenceKind)} (h : Extends x new y) (hx : InRange x) :
    InRange y := by
  intro id n hn
  rw [h.nodeOf_eq] at hn
  rw [h.nodes_eq]
  exact hx id n hn

theorem Numbered.inRange (h : Numbered x modules) : InRange x := by
  intro id n hn
  rw [h.nodes_eq, List.length_range]
  exact h.lt_length hn

/-- The arcs of a module that lead to the node of an id are all of them
where it has the id, and none where it has another. -/
theorem Numbered.filter_arcsOf (h : Numbered x modules) (hn : x.nodeOf[id]? = some n) (m : Module) :
    ((arcsOf x.nodeOf m).filter fun a => a.target = n) =
      if m.id = id then m.references.filterMap (arcOf? x.nodeOf n) else [] := by
  split
  · rename_i hid
    have harcs : arcsOf x.nodeOf m = m.references.filterMap (arcOf? x.nodeOf n) := by
      simp only [arcsOf, hid, hn]
    rw [← harcs, List.filter_eq_self]
    intro a ha
    have htarget := target_of_mem_arcsOf ha
    rw [hid, hn, Option.some.injEq] at htarget
    exact decide_eq_true htarget.symm
  · rename_i hid
    rw [List.filter_eq_nil_iff]
    intro a ha htarget
    have hnode := target_of_mem_arcsOf ha
    rw [of_decide_eq_true htarget] at hnode
    exact hid (h.id_eq hnode hn)

/-- The adjacency of a list of modules. -/
structure Built (x : Adjacency G) (modules : List Module) : Prop extends Numbered x modules where
  arcs_eq : arcs x.graph = modules.flatMap (arcsOf x.nodeOf)

/-- The arcs that lead to the node of an id are those of the references that
the modules with the id hold. -/
theorem Built.filter_arcs (h : Built x modules) (hn : x.nodeOf[id]? = some n) :
    ((arcs x.graph).filter fun a => a.target = n) =
      (ModuleGraph.references ⟨modules⟩ id).filterMap (arcOf? x.nodeOf n) := by
  have hsplit (l : List Module) :
      (l.flatMap fun m => (arcsOf x.nodeOf m).filter fun a => a.target = n) =
        (l.filter fun m => m.id = id).flatMap fun m => m.references.filterMap (arcOf? x.nodeOf n) := by
    induction l with
    | nil => rfl
    | cons m l ih =>
      rw [List.flatMap_cons, ih, h.filter_arcsOf hn]
      by_cases hid : m.id = id
      · rw [if_pos hid, List.filter_cons_of_pos (by simpa using hid), List.flatMap_cons]
      · rw [if_neg hid, List.filter_cons_of_neg (by simpa using hid), List.nil_append]
  rw [h.arcs_eq, List.filter_flatMap, hsplit, ModuleGraph.references, List.filterMap_flatMap]

/-! ## Building -/

variable [LawfulArcGraph G]

theorem numbered_empty : Numbered (empty : Adjacency G) [] where
  nodes_eq := LawfulArcGraph.nodes_empty
  lt_length h := by simp [empty] at h
  last?_eq id := by simp [empty, Module.last?]

/-- **One more module at the end of the list gets the next node**, and its
id names that node from then on. -/
theorem Numbered.addModule (h : Numbered x modules) (m : Module) :
    Numbered (x.addModule (m, modules.length)) (modules ++ [m]) := by
  have hnode : (addNode x.graph modules.length).1 = modules.length := by
    rw [LawfulArcGraph.fst_addNode, h.nodes_eq, List.length_range]
  have hnodeOf (id : String) : (x.addModule (m, modules.length)).nodeOf[id]? =
      if m.id = id then some modules.length else x.nodeOf[id]? := by
    simp only [Adjacency.addModule, hnode, Std.HashMap.getElem?_insert, beq_iff_eq]
  have hlength : (modules ++ [m]).length = modules.length + 1 := by
    rw [List.length_append, List.length_singleton]
  refine ⟨?_, ?_, ?_⟩
  · have hnodes : nodes (x.addModule (m, modules.length)).graph = nodes x.graph ++ [modules.length] :=
      LawfulArcGraph.nodes_addNode _ _
    rw [hnodes, h.nodes_eq, hlength, List.range_succ]
  · intro id n hn
    rw [hnodeOf] at hn
    split at hn
    · obtain rfl := Option.some.inj hn
      omega
    · have := h.lt_length hn
      omega
  · intro id
    rw [Module.last?_concat, hnodeOf]
    by_cases hid : m.id = id
    · rw [if_pos hid, if_pos hid, Option.bind_some, List.getElem?_concat_length]
    · rw [if_neg hid, if_neg hid, h.last?_eq]
      cases hn : x.nodeOf[id]? with
      | none => rfl
      | some n =>
        rw [Option.bind_some, Option.bind_some, List.getElem?_append_left (h.lt_length hn)]

/-- The first pass numbers the modules that are left, behind those that are
numbered already. -/
theorem Numbered.foldl_addModule (h : Numbered x modules) (rest : List Module) :
    Numbered ((rest.zipIdx modules.length).foldl Adjacency.addModule x) (modules ++ rest) ∧
      arcs ((rest.zipIdx modules.length).foldl Adjacency.addModule x).graph = arcs x.graph := by
  induction rest generalizing x modules with
  | nil => exact ⟨by simpa using h, rfl⟩
  | cons m rest ih =>
    obtain ⟨hnumbered, harcs⟩ := ih (h.addModule m)
    rw [List.length_append, List.length_singleton] at hnumbered harcs
    rw [List.append_assoc] at hnumbered
    rw [List.zipIdx_cons, List.foldl_cons]
    exact ⟨hnumbered, harcs.trans (LawfulArcGraph.arcs_addNode _ _)⟩

/-- A reference adds its arc, and nothing where its origin is unknown. -/
theorem exists_addReference (hx : InRange x) (hn : n < (nodes x.graph).length) (r : Reference) :
    ∃ y, x.addReference n r = .ok y ∧ Extends x (arcOf? x.nodeOf n r).toList y := by
  rw [addReference, arcOf?]
  cases ho : x.nodeOf[r.origin]? with
  | none => exact ⟨x, rfl, .refl x⟩
  | some origin =>
    obtain ⟨graph, hadd, hnodes, harcs⟩ :=
      LawfulArcGraph.exists_addArc? x.graph ⟨origin, n, r.kind⟩ (hx _ _ ho) hn
    refine ⟨{ x with graph }, ?_, rfl, hnodes, harcs⟩
    simp only [hadd]

/-- A module adds the arcs of the references that it holds. -/
theorem exists_addReferences (hx : InRange x) (hm : x.nodeOf[m.id]? = some n) :
    ∃ y, x.addReferences m = .ok y ∧ Extends x (arcsOf x.nodeOf m) y := by
  have hpass : ∃ y, m.references.foldlM (addReference n) x = .ok y ∧
      Extends x (m.references.flatMap fun r => (arcOf? x.nodeOf n r).toList) y := by
    refine exists_foldlM fun r _ before y hy => ?_
    rw [← hy.nodeOf_eq]
    have hn : n < (nodes y.graph).length := by
      rw [hy.nodes_eq]
      exact hx _ _ hm
    exact exists_addReference (hy.inRange hx) hn r
  rw [← List.filterMap_eq_flatMap_toList] at hpass
  simpa only [addReferences, arcsOf, hm] using hpass

/-- **Every list of modules has its adjacency**: no pass points at nothing. -/
theorem exists_build (modules : List Module) :
    ∃ x : Adjacency G, build modules = .ok x ∧ Built x modules := by
  obtain ⟨hnumbered, harcs⟩ := (numbered_empty (G := G)).foldl_addModule modules
  rw [List.length_nil, List.nil_append] at hnumbered
  rw [List.length_nil] at harcs
  rw [build]
  generalize modules.zipIdx.foldl Adjacency.addModule (empty : Adjacency G) = x at hnumbered harcs ⊢
  have hpass : ∃ y, modules.foldlM addReferences x = .ok y ∧
      Extends x (modules.flatMap (arcsOf x.nodeOf)) y := by
    refine exists_foldlM fun m hm before y hy => ?_
    obtain ⟨n, hn⟩ := hnumbered.exists_node hm
    rw [← hy.nodeOf_eq] at hn ⊢
    exact exists_addReferences (hy.inRange hnumbered.inRange) hn
  obtain ⟨y, hbuild, hy⟩ := hpass
  refine ⟨y, hbuild, ⟨?_, ?_, ?_⟩, ?_⟩
  · rw [hy.nodes_eq, hnumbered.nodes_eq]
  · rw [hy.nodeOf_eq]
    exact hnumbered.lt_length
  · rw [hy.nodeOf_eq]
    exact hnumbered.last?_eq
  · rw [hy.arcs_eq, harcs, hy.nodeOf_eq, empty, LawfulArcGraph.arcs_empty, List.nil_append]

/-! ## Looking up -/

/-- The node that an id names leads to the last module with the id. -/
theorem Numbered.moduleAt (h : Numbered x modules) (hn : x.nodeOf[id]? = some n) :
    ∃ m, Module.last? modules id = some m ∧ x.moduleAt modules n = .ok m := by
  obtain ⟨m, hlast, hm⟩ := h.exists_last? hn
  have hnode : node? x.graph n = some n := by
    rw [LawfulArcGraph.node?_eq, h.nodes_eq, List.getElem?_range (h.lt_length hn)]
  refine ⟨m, hlast, ?_⟩
  simp only [Adjacency.moduleAt, hnode, hm]

/-- **An id stands for the last module that has it.** -/
theorem Numbered.get?_eq (h : Numbered x modules) (id : String) :
    x.get? modules id = .ok (Module.last? modules id) := by
  rw [get?]
  cases hn : x.nodeOf[id]? with
  | none => rw [h.last?_eq, hn, Option.bind_none]
  | some n =>
    obtain ⟨m, hlast, hm⟩ := h.moduleAt hn
    simp only [hlast, hm, Except.map]

/-- The arc of a reference is looked up as its edge. -/
theorem Numbered.map_edgeOf (h : Numbered x modules) (n : Nat) (r : Reference) :
    (arcOf? x.nodeOf n r).map (x.edgeOf modules) =
      (ModuleGraph.edge? ⟨modules⟩ r).map (Except.ok (ε := IndexFault)) := by
  rw [arcOf?, ModuleGraph.edge?]
  cases ho : x.nodeOf[r.origin]? with
  | none =>
    rw [h.last?_eq, ho, Option.bind_none]
    rfl
  | some origin =>
    obtain ⟨m, hlast, hm⟩ := h.moduleAt ho
    simp only [hlast, Option.map_some, edgeOf, hm, Except.map]

/-- **The edges to an id are the references to it, the latest first.** -/
theorem Built.incoming_eq (h : Built x modules) (id : String) :
    x.incoming modules id =
      .ok ((ModuleGraph.references ⟨modules⟩ id).filterMap (ModuleGraph.edge? ⟨modules⟩)).reverse := by
  rw [incoming]
  cases hn : x.nodeOf[id]? with
  | none =>
    have hlast := h.last?_eq id
    rw [hn, Option.bind_none, Module.last?_eq_none_iff] at hlast
    rw [ModuleGraph.references_eq_nil (by simpa [ModuleGraph.ids] using hlast)]
    rfl
  | some n =>
    have hlt : n < (nodes x.graph).length := h.inRange id n hn
    change (ArcGraph.incoming x.graph n).mapM (x.edgeOf modules) = _
    rw [LawfulArcGraph.incoming_eq _ _ hlt, h.filter_arcs hn, mapM_eq_ok_iff, List.map_reverse,
      List.map_reverse, List.map_filterMap, List.map_filterMap]
    congr 2
    funext r
    exact h.map_edgeOf n r

end Adjacency

namespace ModuleGraph

/-- **An id stands for the last module that has it.** -/
theorem get?_eq (g : ModuleGraph) (id : String) : g.get? id = Module.last? g.modules id := by
  obtain ⟨x, hbuild, hx⟩ := Adjacency.exists_build (G := ArcArray Nat ReferenceKind) g.modules
  rw [get?, adjacency, hbuild, Except.bind, hx.get?_eq]
  rfl

/-- **The edges to an id are the references to it, the latest first.** -/
theorem incoming_eq (g : ModuleGraph) (id : String) :
    g.incoming id = ((g.references id).filterMap g.edge?).reverse := by
  obtain ⟨x, hbuild, hx⟩ := Adjacency.exists_build (G := ArcArray Nat ReferenceKind) g.modules
  rw [incoming, adjacency, hbuild, Except.bind, hx.incoming_eq]
  rfl

/-- **No edge is lost and none is made up.** Of every list of modules the
adjacency is built, and nothing is pointed at in vain, neither then nor when
it is asked: an id stands for the last module that has it, and the edges to
it are all references that modules with the id hold, each from the last
module that has its origin as its id, the latest first. To an unknown id
there is no edge. -/
theorem lookups_exact {G : Type} [ArcGraph G Nat ReferenceKind] [LawfulArcGraph G]
    (g : ModuleGraph) :
    ∃ x : Adjacency G, Adjacency.build g.modules = .ok x ∧ ∀ id,
      x.get? g.modules id = .ok (g.get? id) ∧ x.incoming g.modules id = .ok (g.incoming id) ∧
        g.get? id = Module.last? g.modules id ∧
        g.incoming id = ((g.references id).filterMap g.edge?).reverse ∧
        (id ∉ g.ids → g.incoming id = []) := by
  obtain ⟨x, hbuild, hx⟩ := Adjacency.exists_build (G := G) g.modules
  refine ⟨x, hbuild, fun id => ⟨?_, ?_, g.get?_eq id, g.incoming_eq id, fun hid => ?_⟩⟩
  · rw [hx.get?_eq, g.get?_eq]
  · rw [hx.incoming_eq, g.incoming_eq]
  · rw [g.incoming_eq, references_eq_nil hid]
    rfl

/-! Two ids are there twice, and a reference comes from nowhere. -/

/-- The second module with the id `a.js`. -/
def secondA : Module := { Module.ofSource "a.js" .script with resource := some "lib/a.js" }

/-- The second module with the id `b.js`, which refers to itself as well. -/
def secondB : Module :=
  { Module.ofSource "b.js" .script with references := [⟨"b.js", .sync⟩, ⟨"a.js", .sync⟩] }

/-- The modules and their namesakes. -/
def namesakes : ModuleGraph where
  modules := [.ofSource "a.js" .script,
    { Module.ofSource "b.js" .script with
        references := [⟨"a.js", .sync⟩, ⟨"missing.js", .sync⟩, ⟨"a.js", .async⟩] },
    secondA, secondB]

/-- The references of both modules lead to their id, and come from the last
module with an id. -/
theorem namesakes_looked_up :
    ∃ x : Adjacency (ArcArray Nat ReferenceKind), Adjacency.build namesakes.modules = .ok x ∧
      x.get? namesakes.modules "b.js" = .ok (some secondB) ∧
      x.incoming namesakes.modules "b.js" =
        .ok [⟨secondA, .sync⟩, ⟨secondB, .sync⟩, ⟨secondA, .async⟩, ⟨secondA, .sync⟩] ∧
      x.incoming namesakes.modules "missing.js" = .ok [] := by
  obtain ⟨x, hbuild, hx⟩ := lookups_exact (G := ArcArray Nat ReferenceKind) namesakes
  obtain ⟨hget, hincoming, hlast, hedges, -⟩ := hx "b.js"
  obtain ⟨-, hmissing, -, -, hnone⟩ := hx "missing.js"
  refine ⟨x, hbuild, ?_, ?_, ?_⟩
  · rw [hget, hlast]
    decide
  · rw [hincoming, hedges]
    decide
  · rw [hmissing, hnone (by decide)]

end ModuleGraph

end SplitBuild
