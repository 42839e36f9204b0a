import SplitBuild.Module.Adjacency
/-!
# Module graphs

A module graph is a list of modules. It is asked through the adjacency
that is built of the list: `get?` gives the module that an id stands for,
and `incoming` the edges that lead to it.
-/

namespace SplitBuild

/-- Modules with the references between them. -/
structure ModuleGraph where
  modules : List Module
  deriving DecidableEq, Repr

namespace ModuleGraph

/-- The adjacency of the modules. -/
def adjacency (g : ModuleGraph) : Except IndexFault (Adjacency (ArcArray Nat ReferenceKind)) :=
  Adjacency.build g.modules

/-- The module an id stands for. -/
def get? (g : ModuleGraph) (id : String) : Option Module :=
  (g.adjacency.bind fun x => x.get? g.modules id).toOption.join

/-- The edges to the module an id stands for. -/
def incoming (g : ModuleGraph) (id : String) : List Edge :=
  (g.adjacency.bind fun x => x.incoming g.modules id).toOption.getD []

/-- The ids of the modules, in order. -/
def ids (g : ModuleGraph) : List String := g.modules.map (·.id)

/-- An edge comes from a module of the graph. -/
theorem source_mem_of_mem_incoming {g : ModuleGraph} {id : String} {e : Edge}
    (h : e ∈ g.incoming id) : e.source ∈ g.modules := by
  rw [incoming] at h
  cases hx : g.adjacency with
  | error fault =>
    rw [hx] at h
    cases h
  | ok x =>
    rw [hx] at h
    cases hedges : x.incoming g.modules id with
    | error fault =>
      rw [Except.bind, hedges] at h
      cases h
    | ok edges =>
      rw [Except.bind, hedges] at h
      exact Adjacency.source_mem_of_incoming hedges h

end ModuleGraph

end SplitBuild
