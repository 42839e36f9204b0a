/-!
# Directed graphs

The nodes of a directed graph are numbered in the order in which they are
added, and an arc joins two nodes by their numbers. `ArcGraph` names what
is done with a type of such graphs, and `LawfulArcGraph` what is relied on:
numbers count up from zero, an arc between nodes can always be added, and
**the arcs that lead to a node are gone through from the latest to the
first**. `ArcArray` keeps all nodes and all arcs in the order of addition.
-/

namespace SplitBuild

/-- An arc from one node to another. -/
structure Arc (β : Type) where
  source : Nat
  target : Nat
  label : β
  deriving DecidableEq, Repr

/-- A type of directed graphs with something at every node and a label on
every arc. -/
class ArcGraph (G : Type) (α β : outParam Type) where
  /-- The graph without nodes. -/
  empty : G
  /-- The number of a new node, and the graph with it. -/
  addNode : G → α → Nat × G
  /-- The graph with a new arc; none where one of its ends is no node. -/
  addArc? : G → Arc β → Option G
  /-- What stands at a node. -/
  node? : G → Nat → Option α
  /-- The arcs that lead to a node. -/
  incoming : G → Nat → List (Arc β)
  /-- What stands at the nodes, by their numbers. -/
  nodes : G → List α
  /-- The arcs in the order in which they were added. -/
  arcs : G → List (Arc β)

open ArcGraph

/-- What is relied on of directed graphs. -/
class LawfulArcGraph (G : Type) {α β : Type} [ArcGraph G α β] : Prop where
  nodes_empty : nodes (empty : G) = []
  arcs_empty : arcs (empty : G) = []
  fst_addNode (g : G) (a : α) : (addNode g a).1 = (nodes g).length
  nodes_addNode (g : G) (a : α) : nodes (addNode g a).2 = nodes g ++ [a]
  arcs_addNode (g : G) (a : α) : arcs (addNode g a).2 = arcs g
  exists_addArc? (g : G) (e : Arc β) (hsource : e.source < (nodes g).length)
    (htarget : e.target < (nodes g).length) :
    ∃ g', addArc? g e = some g' ∧ nodes g' = nodes g ∧ arcs g' = arcs g ++ [e]
  node?_eq (g : G) (n : Nat) : node? g n = (nodes g)[n]?
  incoming_eq (g : G) (n : Nat) (h : n < (nodes g).length) :
    incoming g n = ((arcs g).filter fun e => e.target = n).reverse

/-- A directed graph that is kept as the array of its nodes and the array
of its arcs. -/
structure ArcArray (α β : Type) where
  nodes : Array α
  arcs : Array (Arc β)

namespace ArcArray

variable {α β : Type}

instance : ArcGraph (ArcArray α β) α β where
  empty := ⟨#[], #[]⟩
  addNode g a := (g.nodes.size, { g with nodes := g.nodes.push a })
  addArc? g e :=
    if e.source < g.nodes.size ∧ e.target < g.nodes.size then
      some { g with arcs := g.arcs.push e }
    else none
  node? g n := g.nodes[n]?
  incoming g n := (g.arcs.filter fun e => e.target = n).toList.reverse
  nodes g := g.nodes.toList
  arcs g := g.arcs.toList

instance : LawfulArcGraph (ArcArray α β) where
  nodes_empty := rfl
  arcs_empty := rfl
  fst_addNode _ _ := rfl
  nodes_addNode _ _ := Array.toList_push
  arcs_addNode _ _ := rfl
  exists_addArc? _ _ hsource htarget := ⟨_, if_pos ⟨hsource, htarget⟩, rfl, Array.toList_push⟩
  node?_eq _ _ := Array.getElem?_toList.symm
  incoming_eq _ _ _ := congrArg List.reverse Array.toList_filter

end ArcArray

end SplitBuild
