import SplitBuild.ArcGraph
import SplitBuild.Module
import Std.Data.HashMap
/-!
# The adjacency of modules

The references between modules are kept as a directed graph. Every module
of a list has a node, at which its place in the list stands, and an id
names the node of the last module that has it. Places, nodes and ids are
three ways to point at a module, and each step from one to the next may
point at nothing: that is an `IndexFault`.
-/

namespace SplitBuild

/-- What a list is mapped to where nothing fails. -/
theorem mapM_eq_ok_iff {α β ε : Type} {f : α → Except ε β} {l : List α} {r : List β} :
    l.mapM f = .ok r ↔ l.map f = r.map .ok := by
  induction l generalizing r with
  | nil => cases r <;> simp [pure, Except.pure]
  | cons a l ih =>
    rw [List.mapM_cons, List.map_cons]
    cases hf : f a with
    | error e => cases r <;> simp [bind, Except.bind]
    | ok b =>
      have hbind : (Except.ok b >>= fun b => l.mapM f >>= fun bs => pure (b :: bs)) =
          (l.mapM f).map (b :: ·) := by
        cases l.mapM f <;> rfl
      rw [hbind]
      cases r with
      | nil => cases l.mapM f <;> simp [Except.map]
      | cons b' r =>
        rw [List.map_cons, List.cons.injEq, ← ih]
        cases l.mapM f <;> simp [Except.map]

/-- An edge to a module: where it comes from, and how. -/
structure Edge where
  source : Module
  kind : ReferenceKind
  deriving DecidableEq, Repr

/-- A pointer to nothing. -/
inductive IndexFault where
  /-- No node is named by the id. -/
  | id (id : String)
  /-- One of the ends of an arc is no node. -/
  | arc (origin target : Nat)
  /-- There is no such node. -/
  | node (node : Nat)
  /-- No module stands at the place. -/
  | place (place : Nat)
  deriving DecidableEq, Repr

/-- The directed graph of a list of modules, and the node that each id
names. -/
structure Adjacency (G : Type) where
  graph : G
  nodeOf : Std.HashMap String Nat

namespace Adjacency

variable {G : Type} [ArcGraph G Nat ReferenceKind]

/-! ## Building -/

/-- The adjacency of no modules. -/
def empty : Adjacency G := ⟨ArcGraph.empty, ∅⟩

/-- A module at a place gets a node, which its id names from now on. -/
def addModule (x : Adjacency G) (m : Module × Nat) : Adjacency G :=
  let (node, graph) := ArcGraph.addNode x.graph m.2
  { graph, nodeOf := x.nodeOf.insert m.1.id node }

/-- A reference leads from the node of its origin. One whose origin is no
module is left out. -/
def addReference (target : Nat) (x : Adjacency G) (r : Reference) :
    Except IndexFault (Adjacency G) :=
  match x.nodeOf[r.origin]? with
  | none => .ok x
  | some origin =>
    match ArcGraph.addArc? x.graph ⟨origin, target, r.kind⟩ with
    | none => .error (.arc origin target)
    | some graph => .ok { x with graph }

/-- The references that a module holds lead to the node of its id. -/
def addReferences (x : Adjacency G) (m : Module) : Except IndexFault (Adjacency G) :=
  match x.nodeOf[m.id]? with
  | none => .error (.id m.id)
  | some target => m.references.foldlM (addReference target) x

/-- The adjacency of a list of modules: first all nodes, then all arcs. -/
def build (modules : List Module) : Except IndexFault (Adjacency G) :=
  modules.foldlM addReferences (modules.zipIdx.foldl addModule empty)

/-! ## Looking up -/

/-- The module at a node. -/
def moduleAt (x : Adjacency G) (modules : List Module) (node : Nat) : Except IndexFault Module :=
  match ArcGraph.node? x.graph node with
  | none => .error (.node node)
  | some place =>
    match modules[place]? with
    | none => .error (.place place)
    | some m => .ok m

/-- The module that an id names. -/
def get? (x : Adjacency G) (modules : List Module) (id : String) :
    Except IndexFault (Option Module) :=
  match x.nodeOf[id]? with
  | none => .ok none
  | some node => (x.moduleAt modules node).map some

/-- An arc as an edge. -/
def edgeOf (x : Adjacency G) (modules : List Module) (a : Arc ReferenceKind) :
    Except IndexFault Edge :=
  (x.moduleAt modules a.source).map fun m => ⟨m, a.label⟩

/-- The edges to the module that an id names. -/
def incoming (x : Adjacency G) (modules : List Module) (id : String) :
    Except IndexFault (List Edge) :=
  match x.nodeOf[id]? with
  | none => .ok []
  | some node => (ArcGraph.incoming x.graph node).mapM (x.edgeOf modules)

/-- What stands at a node is one of the modules. -/
theorem mem_of_moduleAt {x : Adjacency G} {modules : List Module} {node : Nat} {m : Module}
    (h : x.moduleAt modules node = .ok m) : m ∈ modules := by
  unfold moduleAt at h
  split at h
  · cases h
  · split at h
    · cases h
    · rename_i place hplace m' hm
      cases h
      exact List.mem_of_getElem? hm

/-- An edge comes from one of the modules. -/
theorem source_mem_of_incoming {x : Adjacency G} {modules : List Module} {id : String}
    {edges : List Edge} {e : Edge} (h : x.incoming modules id = .ok edges) (he : e ∈ edges) :
    e.source ∈ modules := by
  unfold incoming at h
  split at h
  · cases h
    cases he
  · have hmap := mapM_eq_ok_iff.1 h
    have hmem : Except.ok e ∈ edges.map (Except.ok (ε := IndexFault)) := List.mem_map_of_mem he
    rw [← hmap] at hmem
    obtain ⟨a, -, ha⟩ := List.mem_map.1 hmem
    unfold edgeOf at ha
    cases hm : x.moduleAt modules a.source with
    | error fault =>
      rw [hm] at ha
      cases ha
    | ok m =>
      rw [hm] at ha
      cases ha
      exact mem_of_moduleAt hm

end Adjacency

end SplitBuild
