import SplitBuild.Context
import SplitBuild.Module.Graph
/-!
# The walk against the references

`Walk.outsider?` looks for a page or component outside a subpackage that
reaches a module through synchronous references. It walks from the module
against the references with a stack and a list of the ids it has seen.
Every id is seen once, so the walk ends: each round either shortens the
stack or leaves fewer ids of the graph unseen (`unseen_lt_or_eq_of_look`).
-/

namespace SplitBuild

/-- A module is the source of a page or component, or the application
entry. -/
def Module.isPageLevel (m : Module) : Bool := m.kind = .component || m.kind = .appEntry

namespace Walk

/-- What the walk does at a module it sees for the first time. -/
inductive Sight where
  /-- The branch ends here. -/
  | ends
  /-- The walk goes on against the references to the module. -/
  | continues
  /-- The module is a page or component outside the subpackage. -/
  | outside
  deriving DecidableEq, Repr

/-- A module without a source file ends its branch, and so does a page or
component inside the subpackage or in an independent one. -/
def sight (ctx : Context) (root : String) (m : Module) : Sight :=
  match m.resource with
  | none => .ends
  | some resource =>
    if !m.isPageLevel then .continues
    else if Path.isUnder resource root then .ends
    else if (ctx.subpackages.matching resource).any (·.independent) then .ends
    else .outside

/-- The ids the walk has seen, and those it has yet to walk from, the next
one first. -/
structure Frontier where
  seen : List String
  stack : List String
  deriving DecidableEq, Repr

/-- The walk looks along the edges to one id, in order: an asynchronous
edge and a module seen before are passed over. It stops at the first
module outside. -/
def look (ctx : Context) (root : String) : List Edge → Frontier → Except String Frontier
  | [], at_ => .ok at_
  | e :: es, at_ =>
    if e.kind = .async ∨ e.source.id ∈ at_.seen then look ctx root es at_
    else
      let seen := e.source.id :: at_.seen
      match sight ctx root e.source with
      | .ends => look ctx root es { at_ with seen }
      | .continues => look ctx root es { seen, stack := e.source.id :: at_.stack }
      | .outside => .error e.source.id

/-- How many modules of the graph have an id that is not seen. -/
def unseen (g : ModuleGraph) (seen : List String) : Nat :=
  (g.modules.filter fun m => m.id ∉ seen).length

/-- Seeing a module of the graph for the first time leaves fewer. -/
theorem unseen_cons_lt {g : ModuleGraph} {seen : List String} {m : Module} (hm : m ∈ g.modules)
    (h : m.id ∉ seen) : unseen g (m.id :: seen) < unseen g seen := by
  unfold unseen
  have hsplit : ∀ l : List Module,
      l.filter (fun x => x.id ∉ m.id :: seen) =
        (l.filter fun x => x.id ∉ seen).filter fun x => x.id ≠ m.id := by
    intro l
    rw [List.filter_filter]
    congr 1
    funext x
    by_cases hx : x.id = m.id <;> simp [hx]
  rw [hsplit]
  refine Nat.lt_of_le_of_ne (List.length_filter_le _ _) fun heq => ?_
  have hall := List.length_filter_eq_length_iff.1 heq
  have := hall m (List.mem_filter.2 ⟨hm, by simpa using h⟩)
  simp at this

/-- After a look along edges of the graph fewer ids are unseen, or nothing
has changed. -/
theorem unseen_lt_or_eq_of_look {ctx : Context} {root : String} {g : ModuleGraph}
    {es : List Edge} {before after : Frontier} (hes : ∀ e ∈ es, e.source ∈ g.modules)
    (h : look ctx root es before = .ok after) :
    unseen g after.seen < unseen g before.seen ∨ after = before := by
  induction es generalizing before with
  | nil =>
    simp only [look, Except.ok.injEq] at h
    exact .inr h.symm
  | cons e es ih =>
    have ih := @ih
    unfold look at h
    split at h
    · exact ih (fun x hx => hes x (List.mem_cons_of_mem _ hx)) h
    · rename_i hnew
      have hfresh : e.source.id ∉ before.seen := fun hm => hnew (.inr hm)
      have hlt := unseen_cons_lt (hes e List.mem_cons_self) hfresh
      have hrest : ∀ x ∈ es, x.source ∈ g.modules := fun x hx => hes x (List.mem_cons_of_mem _ hx)
      split at h
      · rcases ih hrest h with hl | rfl
        · exact .inl (Nat.lt_trans hl hlt)
        · exact .inl hlt
      · rcases ih hrest h with hl | rfl
        · exact .inl (Nat.lt_trans hl hlt)
        · exact .inl hlt
      · simp at h

/-- The walk from a frontier: the first module outside that it meets. -/
def run (ctx : Context) (g : ModuleGraph) (root : String) (at_ : Frontier) : Option String :=
  match at_ with
  | ⟨_, []⟩ => none
  | ⟨seen, id :: stack⟩ =>
    match _h : look ctx root (g.incoming id) ⟨seen, stack⟩ with
    | .error found => some found
    | .ok next => run ctx g root next
termination_by (unseen g at_.seen, at_.stack.length)
decreasing_by
  rcases unseen_lt_or_eq_of_look (fun _ he => ModuleGraph.source_mem_of_mem_incoming he) _h with
    hl | rfl
  · exact Prod.Lex.left _ _ hl
  · exact Prod.Lex.right _ (by simp)

/-- A page or component outside `root` that reaches a module through
synchronous references, the first one met. -/
def outsider? (ctx : Context) (g : ModuleGraph) (m : Module) (root : String) : Option String :=
  run ctx g root ⟨[m.id], [m.id]⟩

end Walk

end SplitBuild
