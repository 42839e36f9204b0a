import SplitBuild.Proofs.Module.Adjacency
import Mathlib.Data.List.Nodup
/-!
# Edges and references

An edge of a module graph comes from the module that its id stands for.
Where ids are distinct an id stands for the one module that has it, and
the synchronous edges to a module are the references it holds
(`syncEdge_iff`).
-/

namespace SplitBuild

variable {g : ModuleGraph}

/-- `o` refers to `m` synchronously; the reference is held by `m`. -/
def Module.SyncRefersTo (o m : Module) : Prop := ⟨o.id, .sync⟩ ∈ m.references

instance (o m : Module) : Decidable (o.SyncRefersTo m) :=
  inferInstanceAs (Decidable (_ ∈ m.references))

namespace ModuleGraph

/-- A synchronous edge leads from a module to an id. -/
def SyncEdge (g : ModuleGraph) (o : Module) (id : String) : Prop :=
  ∃ e ∈ g.incoming id, e.kind = .sync ∧ e.source = o

/-- An edge to an id is a reference to it with the module that its origin
stands for. -/
theorem mem_incoming_iff {id : String} {e : Edge} :
    e ∈ g.incoming id ↔ ∃ r ∈ g.references id, g.get? r.origin = some e.source ∧ r.kind = e.kind := by
  simp only [incoming_eq, List.mem_reverse, List.mem_filterMap, edge?, Option.map_eq_some_iff, get?_eq]
  constructor
  · rintro ⟨r, hr, m, hm, rfl⟩
    exact ⟨r, hr, hm, rfl⟩
  · rintro ⟨r, hr, hm, hk⟩
    exact ⟨r, hr, e.source, hm, by rw [hk]⟩

/-- A module that an id stands for has that id. -/
theorem id_of_get? {id : String} {m : Module} (h : g.get? id = some m) : m.id = id :=
  Module.id_of_last? ((g.get?_eq id).symm.trans h)

/-- A module that an id stands for is in the graph. -/
theorem mem_of_get? {id : String} {m : Module} (h : g.get? id = some m) : m ∈ g.modules :=
  Module.mem_of_last? ((g.get?_eq id).symm.trans h)

/-- An edge comes from the module that its id stands for. -/
theorem SyncEdge.get?_eq {o : Module} {id : String} (h : g.SyncEdge o id) :
    g.get? o.id = some o := by
  obtain ⟨e, he, -, rfl⟩ := h
  obtain ⟨r, -, hr, -⟩ := mem_incoming_iff.1 he
  rw [id_of_get? hr]
  exact hr

/-! ## Distinct ids -/

/-- Where ids are distinct, modules with one id are one module. -/
theorem eq_of_id_eq (hids : g.ids.Nodup) {m n : Module} (hm : m ∈ g.modules) (hn : n ∈ g.modules)
    (h : m.id = n.id) : m = n := List.inj_on_of_nodup_map hids hm hn h

/-- Where ids are distinct, every module is the one its id stands for. -/
theorem get?_of_mem (hids : g.ids.Nodup) {m : Module} (hm : m ∈ g.modules) :
    g.get? m.id = some m := by
  have hsome : (g.get? m.id).isSome := by
    rw [get?_eq, Module.last?, List.find?_isSome]
    exact ⟨m, List.mem_reverse.2 hm, by simp⟩
  obtain ⟨n, hn⟩ := Option.isSome_iff_exists.1 hsome
  rw [hn, eq_of_id_eq hids (mem_of_get? hn) hm (id_of_get? hn)]

/-- Where ids are distinct, the references to an id are those that its
module holds. -/
theorem mem_references_iff (hids : g.ids.Nodup) {m : Module} (hm : m ∈ g.modules)
    {r : Reference} : r ∈ g.references m.id ↔ r ∈ m.references := by
  simp only [references, List.mem_flatMap, List.mem_filter, decide_eq_true_eq]
  constructor
  · rintro ⟨n, ⟨hn, hid⟩, hr⟩
    rw [eq_of_id_eq hids hn hm hid] at hr
    exact hr
  · exact fun hr => ⟨m, ⟨hm, rfl⟩, hr⟩

/-- **Where ids are distinct, the synchronous edges to a module are the
references it holds**, as far as they come from modules. -/
theorem syncEdge_iff (hids : g.ids.Nodup) {o m : Module} (hm : m ∈ g.modules) :
    g.SyncEdge o m.id ↔ o ∈ g.modules ∧ o.SyncRefersTo m := by
  constructor
  · rintro ⟨e, he, hk, rfl⟩
    obtain ⟨⟨origin, kind⟩, hr, ho, hrk⟩ := mem_incoming_iff.1 he
    refine ⟨mem_of_get? ho, ?_⟩
    rw [Module.SyncRefersTo, id_of_get? ho, ← hk, ← hrk]
    exact (mem_references_iff hids hm).1 hr
  · rintro ⟨ho, href⟩
    have hr : (⟨o.id, .sync⟩ : Reference) ∈ g.references m.id :=
      (mem_references_iff hids hm).2 href
    exact ⟨⟨o, .sync⟩, mem_incoming_iff.2 ⟨_, hr, get?_of_mem hids ho, rfl⟩, rfl, rfl⟩

end ModuleGraph

end SplitBuild
