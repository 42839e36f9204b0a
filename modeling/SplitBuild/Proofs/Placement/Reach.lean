import SplitBuild.Placement.Walk
import SplitBuild.Proofs.Module.Edges
import Mathlib.Data.List.Chain
/-!
# What the walk reaches

`Met` is the relation that the walk against the references decides: the
modules that a chain of synchronous references leads from, through
modules where the walk goes on. The walk finds nothing exactly when no
such module lies outside (`outsider?_eq_none_iff`). Both halves are read
off one invariant of the frontier, which every look along the edges to an
id keeps. `exists_chain_iff` spells the relation out as a list of modules.
-/

namespace SplitBuild

variable {ctx : Context} {g : ModuleGraph} {root start : String}

namespace Module

/-- The walk goes on through a module. -/
def IsPassage (m : Module) : Prop := m.isPageLevel = false ∧ m.resource.isSome

/-- A page or component that lies neither under `root` nor in an
independent subpackage. -/
def IsOutside (ctx : Context) (root : String) (m : Module) : Prop :=
  m.isPageLevel ∧ ∃ resource, m.resource = some resource ∧ ¬ Path.isUnder resource root ∧
    ∀ s, ctx.subpackages.matching resource = some s → ¬ s.independent

end Module

namespace Walk

/-! ## What a module looks like -/

theorem sight_eq_continues_iff (ctx : Context) (root : String) {m : Module} :
    sight ctx root m = .continues ↔ m.IsPassage := by
  unfold sight Module.IsPassage
  cases m.resource with
  | none => simp
  | some resource =>
    cases m.isPageLevel with
    | false => simp
    | true =>
      simp only [Bool.not_true, Bool.false_eq_true, if_false, reduceCtorEq, false_and, iff_false]
      split
      · simp
      · split <;> simp

theorem sight_eq_outside_iff {m : Module} :
    sight ctx root m = .outside ↔ m.IsOutside ctx root := by
  unfold sight Module.IsOutside
  cases m.resource with
  | none => simp
  | some resource =>
    cases m.isPageLevel with
    | false => simp
    | true =>
      cases hu : Path.isUnder resource root <;>
        cases hm : ctx.subpackages.matching resource <;> simp [hu, hm]

/-! ## The relation -/

/-- The modules that a chain of synchronous references leads from to the
id `start`, through modules where the walk goes on and past none with
that id. -/
inductive Met (g : ModuleGraph) (start : String) : Module → Prop
  /-- A module that refers to the id itself. -/
  | near {o : Module} : g.SyncEdge o start → o.id ≠ start → Met g start o
  /-- A module that refers to one where the walk goes on. -/
  | far {i o : Module} : Met g start i → i.IsPassage → g.SyncEdge o i.id → o.id ≠ start →
      Met g start o

/-- The walk goes on at an id. -/
def Open (g : ModuleGraph) (start id : String) : Prop :=
  id = start ∨ ∃ i, Met g start i ∧ i.IsPassage ∧ i.id = id

theorem Open.met {id : String} {o : Module} (h : Open g start id) (he : g.SyncEdge o id)
    (hne : o.id ≠ start) : Met g start o := by
  rcases h with rfl | ⟨i, hi, hpass, rfl⟩
  · exact .near he hne
  · exact .far hi hpass he hne

theorem Met.ne_start {o : Module} (h : Met g start o) : o.id ≠ start := by
  cases h with
  | near _ hne => exact hne
  | far _ _ _ hne => exact hne

/-- A module that is met is the one its id stands for. -/
theorem Met.get?_eq {o : Module} (h : Met g start o) : g.get? o.id = some o := by
  cases h with
  | near he _ => exact he.get?_eq
  | far _ _ he _ => exact he.get?_eq

theorem Met.eq_of_id_eq {o p : Module} (ho : Met g start o) (hp : g.get? p.id = some p)
    (h : o.id = p.id) : o = p :=
  Option.some.inj (ho.get?_eq.symm.trans (h ▸ hp))

/-- **Where every edge to a module has a counterpart in another graph, so has
everything that is met.** Counterparts have the same id, and the walk goes
on through both. -/
theorem Met.of_edges {g' : ModuleGraph} {R : Module → Module → Prop}
    (hid : ∀ o p, R o p → o.id = p.id) (hpass : ∀ o p, R o p → o.IsPassage → p.IsPassage)
    (hedge : ∀ i ∈ g.modules, ∀ o, g.SyncEdge o i.id → ∃ p, g'.SyncEdge p i.id ∧ R o p)
    {m o : Module} (hm : m ∈ g.modules) (ho : Met g m.id o) : ∃ p, Met g' m.id p ∧ R o p := by
  -- on how `o` was met: each passage and each edge has its counterpart
  induction ho with
  | @near o he hne =>
    obtain ⟨p, hp, hop⟩ := hedge m hm o he
    exact ⟨p, .near hp (hid o p hop ▸ hne), hop⟩
  | @far i o hi hi' he hne ih =>
    obtain ⟨j, hj, hij⟩ := ih
    obtain ⟨p, hp, hop⟩ := hedge i (ModuleGraph.mem_of_get? hi.get?_eq) o he
    rw [hid i j hij] at hp
    exact ⟨p, .far hj (hpass i j hij hi') hp (hid o p hop ▸ hne), hop⟩

/-! ## The invariant of the frontier -/

/-- What holds of a frontier while edges `pending` to an id where the walk
goes on are yet to be looked along: what was seen is met and not outside,
and where an id was walked from, every module that refers to it was seen. -/
structure Invariant (ctx : Context) (g : ModuleGraph) (root start : String)
    (pending : List Edge) (f : Frontier) : Prop where
  start_mem : start ∈ f.seen
  seen_met : ∀ id ∈ f.seen, id = start ∨ ∃ o, Met g start o ∧ o.id = id ∧ ¬ o.IsOutside ctx root
  stack_open : ∀ id ∈ f.stack, Open g start id
  stack_seen : ∀ id ∈ f.stack, id ∈ f.seen
  pending_open : ∀ e ∈ pending, ∃ id, Open g start id ∧ e ∈ g.incoming id
  covered : ∀ id ∈ f.seen, Open g start id → ∀ e ∈ g.incoming id, e.kind = .sync →
    id ∈ f.stack ∨ e.source.id ∈ f.seen ∨ e ∈ pending

/-- The walk starts at the id alone. -/
theorem invariant_start : Invariant ctx g root start [] ⟨[start], [start]⟩ where
  start_mem := List.mem_singleton_self _
  seen_met id hid := .inl (List.mem_singleton.1 hid)
  stack_open id hid := .inl (List.mem_singleton.1 hid)
  stack_seen _ hid := hid
  pending_open := by simp
  covered id hid _ _ _ _ := .inl hid

/-- Taking an id off the stack leaves the edges to it to be looked along. -/
theorem Invariant.pop {id : String} {seen stack : List String}
    (inv : Invariant ctx g root start [] ⟨seen, id :: stack⟩) :
    Invariant ctx g root start (g.incoming id) ⟨seen, stack⟩ where
  start_mem := inv.start_mem
  seen_met := inv.seen_met
  stack_open x hx := inv.stack_open x (List.mem_cons_of_mem _ hx)
  stack_seen x hx := inv.stack_seen x (List.mem_cons_of_mem _ hx)
  pending_open e he := ⟨id, inv.stack_open id List.mem_cons_self, he⟩
  covered x hx hopen e he hk := by
    rcases inv.covered x hx hopen e he hk with hs | hs | hs
    · rcases List.mem_cons.1 hs with rfl | hs
      · exact .inr (.inr he)
      · exact .inl hs
    · exact .inr (.inl hs)
    · simp at hs

/-- A synchronous edge yet to be looked along comes from a module that is
met, unless it comes from the start. -/
theorem Invariant.met_of_pending {pending : List Edge} {f : Frontier} {e : Edge}
    (inv : Invariant ctx g root start pending f) (he : e ∈ pending) (hk : e.kind = .sync)
    (hnew : e.source.id ∉ f.seen) : Met g start e.source := by
  obtain ⟨id, hopen, hin⟩ := inv.pending_open e he
  exact hopen.met ⟨e, hin, hk, rfl⟩ fun h => hnew (h ▸ inv.start_mem)

/-- An edge that is asynchronous or comes from a module seen before may be
passed over. -/
theorem Invariant.pass {e : Edge} {es : List Edge} {f : Frontier}
    (inv : Invariant ctx g root start (e :: es) f)
    (h : e.kind = .async ∨ e.source.id ∈ f.seen) : Invariant ctx g root start es f where
  start_mem := inv.start_mem
  seen_met := inv.seen_met
  stack_open := inv.stack_open
  stack_seen := inv.stack_seen
  pending_open x hx := inv.pending_open x (List.mem_cons_of_mem _ hx)
  covered id hid hopen x hx hk := by
    rcases inv.covered id hid hopen x hx hk with hs | hs | hs
    · exact .inl hs
    · exact .inr (.inl hs)
    · rcases List.mem_cons.1 hs with rfl | hs
      · rcases h with ha | hseen
        · rw [ha] at hk; cases hk
        · exact .inr (.inl hseen)
      · exact .inr (.inr hs)

/-- A module that is seen for the first time and not outside joins the
frontier; its id goes on the stack where the walk goes on. -/
theorem Invariant.see {e : Edge} {es : List Edge} {f : Frontier} {stack : List String}
    (inv : Invariant ctx g root start (e :: es) f) (hk : e.kind = .sync)
    (hnew : e.source.id ∉ f.seen) (hin : ¬ e.source.IsOutside ctx root)
    (hstack : e.source.IsPassage ∧ stack = e.source.id :: f.stack ∨
      ¬ e.source.IsPassage ∧ stack = f.stack) :
    Invariant ctx g root start es ⟨e.source.id :: f.seen, stack⟩ := by
  have hmet := inv.met_of_pending List.mem_cons_self hk hnew
  have hmono : ∀ id ∈ f.stack, id ∈ stack := by
    rcases hstack with ⟨-, rfl⟩ | ⟨-, rfl⟩
    · exact fun id hid => List.mem_cons_of_mem _ hid
    · exact fun id hid => hid
  have hsplit : ∀ id ∈ stack, id ∈ f.stack ∨ e.source.IsPassage ∧ id = e.source.id := by
    intro id hid
    rcases hstack with ⟨hp, rfl⟩ | ⟨-, rfl⟩
    · rcases List.mem_cons.1 hid with rfl | hid
      · exact .inr ⟨hp, rfl⟩
      · exact .inl hid
    · exact .inl hid
  refine
    { start_mem := List.mem_cons_of_mem _ inv.start_mem
      seen_met := fun id hid => ?_
      stack_open := fun id hid => ?_
      stack_seen := fun id hid => ?_
      pending_open := fun x hx => inv.pending_open x (List.mem_cons_of_mem _ hx)
      covered := fun id hid hopen x hx hkx => ?_ }
  · rcases List.mem_cons.1 hid with rfl | hid
    · exact .inr ⟨_, hmet, rfl, hin⟩
    · exact inv.seen_met id hid
  · rcases hsplit id hid with hid | ⟨hp, rfl⟩
    · exact inv.stack_open id hid
    · exact .inr ⟨_, hmet, hp, rfl⟩
  · rcases hsplit id hid with hid | ⟨-, rfl⟩
    · exact List.mem_cons_of_mem _ (inv.stack_seen id hid)
    · exact List.mem_cons_self
  · rcases List.mem_cons.1 hid with rfl | hid
    · -- the new id is open only where its module is a passage, and then it is on the stack
      rcases hopen with hs | ⟨i, hi, hp, hid⟩
      · exact absurd hs hmet.ne_start
      · obtain rfl := hi.eq_of_id_eq hmet.get?_eq hid
        rcases hstack with ⟨-, rfl⟩ | ⟨hnp, -⟩
        · exact .inl List.mem_cons_self
        · exact absurd hp hnp
    · rcases inv.covered id hid hopen x hx hkx with hs | hs | hs
      · exact .inl (hmono id hs)
      · exact .inr (.inl (List.mem_cons_of_mem _ hs))
      · rcases List.mem_cons.1 hs with rfl | hs
        · exact .inr (.inl List.mem_cons_self)
        · exact .inr (.inr hs)

/-- **A look keeps the invariant**, and stops only at a module that is met
and lies outside. -/
theorem Invariant.look {es : List Edge} {f : Frontier}
    (inv : Invariant ctx g root start es f) :
    match look ctx root es f with
    | .ok next => Invariant ctx g root start [] next
    | .error found => ∃ o, Met g start o ∧ o.id = found ∧ o.IsOutside ctx root := by
  induction es generalizing f with
  | nil => exact inv
  | cons e es ih =>
    by_cases h : e.kind = .async ∨ e.source.id ∈ f.seen
    · rw [Walk.look, if_pos h]
      exact ih (inv.pass h)
    · rw [Walk.look, if_neg h]
      obtain ⟨hasync, hnew⟩ := not_or.1 h
      have hk : e.kind = .sync := by
        cases hk : e.kind with
        | sync => rfl
        | async => exact absurd hk hasync
      cases hs : sight ctx root e.source with
      | ends =>
        refine ih (inv.see hk hnew ?_ (.inr ⟨?_, rfl⟩))
        · rw [← sight_eq_outside_iff, hs]; simp
        · rw [← sight_eq_continues_iff ctx root, hs]; simp
      | continues =>
        refine ih (inv.see hk hnew ?_ (.inl ⟨(sight_eq_continues_iff ctx root).1 hs, rfl⟩))
        rw [← sight_eq_outside_iff, hs]; simp
      | outside =>
        exact ⟨_, inv.met_of_pending List.mem_cons_self hk hnew, rfl, sight_eq_outside_iff.1 hs⟩

/-! ## The walk -/

/-- The walk ends where a look along the edges to the next id stops. -/
theorem run_of_look_error {id found : String} {seen stack : List String}
    (h : look ctx root (g.incoming id) ⟨seen, stack⟩ = .error found) :
    run ctx g root ⟨seen, id :: stack⟩ = some found := by
  rw [run]
  split
  · rename_i h'
    rw [h] at h'
    exact congrArg some (Except.error.inj h').symm
  · rename_i h'
    rw [h] at h'
    cases h'

/-- And it goes on from where such a look leads. -/
theorem run_of_look_ok {id : String} {seen stack : List String} {next : Frontier}
    (h : look ctx root (g.incoming id) ⟨seen, stack⟩ = .ok next) :
    run ctx g root ⟨seen, id :: stack⟩ = run ctx g root next := by
  rw [run]
  split
  · rename_i h'
    rw [h] at h'
    cases h'
  · rename_i h'
    rw [h] at h'
    rw [Except.ok.inj h']

/-- Where nothing is left to walk from, everything met was seen. -/
theorem Invariant.mem_seen {seen : List String} {o : Module}
    (inv : Invariant ctx g root start [] ⟨seen, []⟩) (ho : Met g start o) : o.id ∈ seen := by
  have hedge : ∀ {o : Module} {id : String}, id ∈ seen → Open g start id → g.SyncEdge o id →
      o.id ∈ seen := by
    rintro o id hid hopen ⟨e, he, hk, rfl⟩
    simpa using inv.covered id hid hopen e he hk
  induction ho with
  | near he _ => exact hedge inv.start_mem (.inl rfl) he
  | far hi hp he _ ih => exact hedge ih (.inr ⟨_, hi, hp, rfl⟩) he

/-- **The walk from a frontier** finds a module outside that is met, and
finds none only where there is none. -/
theorem Invariant.run {f : Frontier} (inv : Invariant ctx g root start [] f) :
    match run ctx g root f with
    | some found => ∃ o, Met g start o ∧ o.id = found ∧ o.IsOutside ctx root
    | none => ∀ o, Met g start o → ¬ o.IsOutside ctx root := by
  fun_induction Walk.run ctx g root f with
  | case1 seen =>
    intro o ho
    rcases inv.seen_met _ (inv.mem_seen ho) with hs | ⟨p, hp, hid, hin⟩
    · exact absurd hs ho.ne_start
    · rwa [ho.eq_of_id_eq hp.get?_eq hid.symm]
  | case2 seen id stack found h =>
    have := inv.pop.look
    rw [h] at this
    exact this
  | case3 seen id stack next h ih =>
    have := inv.pop.look
    rw [h] at this
    exact ih this

/-- **The walk finds nothing exactly where nothing outside is met.** -/
theorem outsider?_eq_none_iff {m : Module} :
    outsider? ctx g m root = none ↔ ∀ o, Met g m.id o → ¬ o.IsOutside ctx root := by
  have hrun := (invariant_start : Invariant ctx g root m.id [] ⟨[m.id], [m.id]⟩).run
  unfold outsider?
  cases h : run ctx g root ⟨[m.id], [m.id]⟩ with
  | none =>
    rw [h] at hrun
    exact iff_of_true rfl hrun
  | some found =>
    rw [h] at hrun
    obtain ⟨o, ho, -, hout⟩ := hrun
    exact iff_of_false (by simp) fun hno => hno o ho hout

/-! ## The relation as chains -/

/-- A chain of synchronous references that leads to `m` from `last`
through some modules, the nearest first, where the walk goes on. -/
structure Chain (g : ModuleGraph) (m : Module) (through : List Module) (last : Module) : Prop where
  mem : ∀ i ∈ through ++ [last], i ∈ g.modules
  ne : ∀ i ∈ through ++ [last], i ≠ m
  linked : (m :: (through ++ [last])).IsChain fun i o => o.SyncRefersTo i
  passes : ∀ i ∈ through, i.IsPassage

/-- Where the walk goes on at the first module of a chain, it meets the
last one. -/
theorem met_of_isChain (hids : g.ids.Nodup) {i last : Module} {through : List Module}
    (hi : i ∈ g.modules) (hopen : Open g start i.id)
    (hmem : ∀ x ∈ through ++ [last], x ∈ g.modules) (hne : ∀ x ∈ through ++ [last], x.id ≠ start)
    (hlinked : (i :: (through ++ [last])).IsChain fun i o => o.SyncRefersTo i)
    (hpass : ∀ x ∈ through, x.IsPassage) : Met g start last := by
  induction through generalizing i with
  | nil =>
    have hlast : last ∈ ([] : List Module) ++ [last] := by simp
    have href : last.SyncRefersTo i := by simpa using hlinked
    exact hopen.met ((ModuleGraph.syncEdge_iff hids hi).2 ⟨hmem last hlast, href⟩) (hne last hlast)
  | cons x xs ih =>
    have hx : x ∈ x :: xs ++ [last] := by simp
    rw [List.cons_append, List.isChain_cons_cons] at hlinked
    have hmet : Met g start x :=
      hopen.met ((ModuleGraph.syncEdge_iff hids hi).2 ⟨hmem x hx, hlinked.1⟩) (hne x hx)
    exact ih (hmem x hx) (.inr ⟨x, hmet, hpass x (by simp), rfl⟩)
      (fun y hy => hmem y (List.mem_cons_of_mem _ hy)) (fun y hy => hne y (List.mem_cons_of_mem _ hy))
      hlinked.2 fun y hy => hpass y (List.mem_cons_of_mem _ hy)

/-- A chain of anything goes on with what follows its last item. -/
theorem isChain_snoc {α : Type} {R : α → α → Prop} {a b c : α} {l : List α}
    (h : (a :: (l ++ [b])).IsChain R) (hbc : R b c) : (a :: (l ++ [b] ++ [c])).IsChain R := by
  have hjoined : (a :: l ++ b :: [c]).IsChain R :=
    List.isChain_append_cons_cons.2 ⟨h, hbc, .singleton c⟩
  rwa [List.append_assoc]

/-- A chain goes on with what refers to its last module, where that one is a
passage. -/
theorem Chain.snoc {m i o : Module} {through : List Module} (hc : Chain g m through i)
    (hp : i.IsPassage) (ho : o ∈ g.modules) (hom : o ≠ m) (href : o.SyncRefersTo i) :
    Chain g m (through ++ [i]) o where
  mem := List.forall_mem_append.2 ⟨hc.mem, List.forall_mem_singleton.2 ho⟩
  ne := List.forall_mem_append.2 ⟨hc.ne, List.forall_mem_singleton.2 hom⟩
  linked := isChain_snoc hc.linked href
  passes := List.forall_mem_append.2 ⟨hc.passes, List.forall_mem_singleton.2 hp⟩

/-- **Where ids are distinct, a module is met exactly where a chain leads
from it.** -/
theorem exists_chain_iff (hids : g.ids.Nodup) {m : Module} (hm : m ∈ g.modules) {last : Module} :
    (∃ through, Chain g m through last) ↔ Met g m.id last := by
  constructor
  · rintro ⟨through, hc⟩
    refine met_of_isChain hids hm (.inl rfl) hc.mem (fun x hx hid => ?_) hc.linked hc.passes
    exact hc.ne x hx (ModuleGraph.eq_of_id_eq hids (hc.mem x hx) hm hid)
  · intro h
    induction h with
    | @near o he hne =>
      obtain ⟨ho, href⟩ := (ModuleGraph.syncEdge_iff hids hm).1 he
      refine ⟨[], ?_, ?_, ?_, ?_⟩
      · simpa using ho
      · simpa using fun h => hne (congrArg Module.id h)
      · simpa using href
      · simp
    | @far i o hi hp he hne ih =>
      obtain ⟨through, hc⟩ := ih
      have him : i ∈ g.modules := ModuleGraph.mem_of_get? hi.get?_eq
      obtain ⟨ho, href⟩ := (ModuleGraph.syncEdge_iff hids him).1 he
      have hom : o ≠ m := fun h => hne (congrArg Module.id h)
      exact ⟨through ++ [i], hc.snoc hp ho hom href⟩

end Walk

end SplitBuild
