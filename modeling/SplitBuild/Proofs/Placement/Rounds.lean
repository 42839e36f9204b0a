import SplitBuild.Proofs.Placement.Reach
import Mathlib.Data.List.Dedup
import Mathlib.Data.List.Perm.Subperm
/-!
# The rounds of the walk

The stack of the walk grows and shrinks, so it does not tell how long the
walk goes on. A journal does: it notes every id that the walk puts on the
stack and every id that it takes off, one in each round. Keeping it changes
nothing about the walk (`Journal.run_snd`). An id goes on the stack only where it
is seen for the first time, so no id is put there twice (`Journal.Kept.push`),
and every round takes off one that was. Ids that are seen are ids of the graph,
and so **the walk ends after at most as many rounds as there are ids**
(`walk_ends`).
-/

namespace SplitBuild

namespace Walk

variable {ctx : Context} {g : ModuleGraph} {root start : String}

/-! ## The journal -/

/-- Where the walk stands, and what it has done so far, the latest first. -/
structure Journal extends Frontier where
  /-- The ids that were put on the stack since the start. -/
  pushed : List String
  /-- The ids that were taken off the stack, one in each round. -/
  rounds : List String

namespace Journal

/-- The journal of a walk that has not begun. -/
def ofStart (start : String) : Journal := ⟨⟨[start], [start]⟩, [], []⟩

/-- An id is seen. -/
def see (j : Journal) (id : String) : Journal := { j with seen := id :: j.seen }

/-- An id goes on the stack. -/
def push (j : Journal) (id : String) : Journal :=
  { j with stack := id :: j.stack, pushed := id :: j.pushed }

/-- The walk looks along some edges and keeps its journal, up to the first
module outside. -/
def look (ctx : Context) (root : String) : List Edge → Journal → Journal × Option String
  | [], j => (j, none)
  | e :: es, j =>
    if e.kind = .async ∨ e.source.id ∈ j.seen then look ctx root es j
    else
      match sight ctx root e.source with
      | .ends => look ctx root es (j.see e.source.id)
      | .continues => look ctx root es ((j.see e.source.id).push e.source.id)
      | .outside => (j.see e.source.id, some e.source.id)

variable {j k : Journal} {es : List Edge} {e : Edge} {id found : String}

/-- What a look with a journal comes to without it. -/
def outcome : Journal × Option String → Except String Frontier
  | (j, none) => .ok j.toFrontier
  | (_, some found) => .error found

/-- Keeping a journal does not change what a look comes to. -/
theorem outcome_look (j : Journal) (es : List Edge) :
    outcome (look ctx root es j) = Walk.look ctx root es j.toFrontier := by
  induction es generalizing j with
  | nil => rfl
  | cons e es ih =>
    rw [look, Walk.look]
    split
    · exact ih j
    · cases sight ctx root e.source with
      | ends => exact ih (j.see e.source.id)
      | continues => exact ih ((j.see e.source.id).push e.source.id)
      | outside => rfl

theorem look_eq_ok {before : Journal} (h : look ctx root es before = (j, none)) :
    Walk.look ctx root es before.toFrontier = .ok j.toFrontier := by
  rw [← outcome_look, h, outcome]

theorem look_eq_error {before : Journal} (h : look ctx root es before = (j, some found)) :
    Walk.look ctx root es before.toFrontier = .error found := by
  rw [← outcome_look, h, outcome]

/-- The walk with its journal, to its end. -/
def run (ctx : Context) (g : ModuleGraph) (root : String) (j : Journal) :
    Journal × Option String :=
  match j with
  | ⟨⟨seen, []⟩, pushed, rounds⟩ => (⟨⟨seen, []⟩, pushed, rounds⟩, none)
  | ⟨⟨seen, id :: stack⟩, pushed, rounds⟩ =>
    match _h : look ctx root (g.incoming id) ⟨⟨seen, stack⟩, pushed, id :: rounds⟩ with
    | (last, some found) => (last, some found)
    | (next, none) => run ctx g root next
termination_by (unseen g j.seen, j.stack.length)
decreasing_by
  rcases unseen_lt_or_eq_of_look (fun _ he => ModuleGraph.source_mem_of_mem_incoming he)
    (look_eq_ok _h) with hl | heq
  · exact Prod.Lex.left _ _ hl
  · rw [heq]
    exact Prod.Lex.right _ (by simp)

/-- **Keeping a journal does not change what a walk finds.** -/
theorem run_snd (j : Journal) : (run ctx g root j).2 = Walk.run ctx g root j.toFrontier := by
  fun_induction run ctx g root j with
  | case1 seen pushed rounds => rw [Walk.run]
  | case2 seen id stack pushed rounds last found h =>
    exact (run_of_look_error (look_eq_error h)).symm
  | case3 seen id stack pushed rounds next h ih =>
    rw [ih]
    exact (run_of_look_ok (look_eq_ok h)).symm

/-! ## What a journal holds -/

/-- The ids that were put on the stack, the start with them, are distinct and
have been seen; each of them is still there or was taken off in one round. -/
structure Kept (start : String) (j : Journal) : Prop where
  nodup : (start :: j.pushed).Nodup
  seen : ∀ id ∈ start :: j.pushed, id ∈ j.seen
  accounted : (j.stack ++ j.rounds).Perm (start :: j.pushed)

theorem kept_ofStart (start : String) : Kept start (ofStart start) where
  nodup := List.nodup_singleton start
  seen _ hid := hid
  accounted := List.Perm.refl [start]

theorem Kept.see (h : Kept start j) (id : String) : Kept start (j.see id) where
  nodup := h.nodup
  seen other hother := List.mem_cons_of_mem id (h.seen other hother)
  accounted := h.accounted

/-- **An id that is seen for the first time goes on the stack for the first
time.** -/
theorem Kept.push (h : Kept start j) (hnew : id ∉ j.seen) :
    Kept start ((j.see id).push id) where
  nodup := by
    have hfresh : id ∉ start :: j.pushed := fun hid => hnew (h.seen id hid)
    exact (List.Perm.swap start id j.pushed).nodup (List.nodup_cons.2 ⟨hfresh, h.nodup⟩)
  seen other hother := by
    rcases List.mem_cons.1 ((List.Perm.swap id start j.pushed).subset hother) with rfl | hother
    · exact List.mem_cons_self
    · exact List.mem_cons_of_mem id (h.seen other hother)
  accounted := (h.accounted.cons id).trans (List.Perm.swap start id j.pushed)

/-- No id is taken off the stack twice. -/
theorem Kept.nodup_rounds (h : Kept start j) : j.rounds.Nodup :=
  (List.nodup_append.1 (h.accounted.nodup_iff.2 h.nodup)).2.1

/-- No more ids are taken off the stack than were put there. -/
theorem Kept.length_rounds_le (h : Kept start j) :
    j.rounds.length ≤ (start :: j.pushed).length := by
  rw [← h.accounted.length_eq, List.length_append]
  exact Nat.le_add_left _ _

/-- A round takes the next id off the stack. -/
theorem Kept.round {seen stack pushed rounds : List String}
    (h : Kept start ⟨⟨seen, id :: stack⟩, pushed, rounds⟩) :
    Kept start ⟨⟨seen, stack⟩, pushed, id :: rounds⟩ where
  nodup := h.nodup
  seen := h.seen
  accounted := List.perm_middle.trans h.accounted

theorem Kept.look (h : Kept start j) (es : List Edge) : Kept start (look ctx root es j).1 := by
  induction es generalizing j with
  | nil => exact h
  | cons e es ih =>
    rw [Journal.look]
    split
    · exact ih h
    · rename_i hpass
      have hnew : e.source.id ∉ j.seen := (not_or.1 hpass).2
      cases sight ctx root e.source with
      | ends => exact ih (h.see e.source.id)
      | continues => exact ih (h.push hnew)
      | outside => exact h.see e.source.id

/-- **A round keeps the journal.** -/
theorem Kept.round_look {seen stack pushed rounds : List String} {next : Journal}
    {stop : Option String} (h : Kept start ⟨⟨seen, id :: stack⟩, pushed, rounds⟩)
    (hlook : Journal.look ctx root es ⟨⟨seen, stack⟩, pushed, id :: rounds⟩ = (next, stop)) :
    Kept start next := by
  have hkept : Kept start (Journal.look ctx root es ⟨⟨seen, stack⟩, pushed, id :: rounds⟩).1 :=
    h.round.look es
  rwa [hlook] at hkept

/-- So all of them do. -/
theorem Kept.run (h : Kept start j) : Kept start (run ctx g root j).1 := by
  fun_induction Journal.run ctx g root j with
  | case1 seen pushed rounds => exact h
  | case2 seen id stack pushed rounds last found hlook => exact h.round_look hlook
  | case3 seen id stack pushed rounds next hlook ih => exact ih (h.round_look hlook)

/-! ## What has been seen -/

/-- A look sees where the synchronous edges come from, and nothing else. -/
theorem mem_seen_look (hid : id ∈ (look ctx root es j).1.seen) :
    id ∈ j.seen ∨ ∃ e ∈ es, e.kind = .sync ∧ e.source.id = id := by
  induction es generalizing j with
  | nil => exact .inl hid
  | cons e es ih =>
    rw [look] at hid
    split at hid
    · rcases ih hid with hseen | ⟨x, hx, hk, hsource⟩
      · exact .inl hseen
      · exact .inr ⟨x, List.mem_cons_of_mem e hx, hk, hsource⟩
    · rename_i hpass
      have hk : e.kind = .sync := by
        cases hk : e.kind with
        | sync => rfl
        | async => exact absurd (.inl hk) hpass
      -- the source of this edge is seen now, and later edges see what they see
      have hlater : id ∈ e.source.id :: j.seen ∨
          ∃ x ∈ es, x.kind = .sync ∧ x.source.id = id := by
        cases hs : sight ctx root e.source with
        | ends =>
          rw [hs] at hid
          exact ih hid
        | continues =>
          rw [hs] at hid
          exact ih hid
        | outside =>
          rw [hs] at hid
          exact .inl hid
      rcases hlater with hseen | ⟨x, hx, hkx, hsource⟩
      · rcases List.mem_cons.1 hseen with rfl | hseen
        · exact .inr ⟨e, List.mem_cons_self, hk, rfl⟩
        · exact .inl hseen
      · exact .inr ⟨x, List.mem_cons_of_mem e hx, hkx, hsource⟩

/-- What a look along edges to an open id sees is met. -/
theorem met_of_mem_seen_look (inv : Invariant ctx g root start es j.toFrontier)
    (hid : id ∈ (look ctx root es j).1.seen) : id = start ∨ ∃ o, Met g start o ∧ o.id = id := by
  have hbefore : id ∈ j.seen → id = start ∨ ∃ o, Met g start o ∧ o.id = id := by
    intro hseen
    rcases inv.seen_met id hseen with hstart | ⟨o, ho, hoid, -⟩
    · exact .inl hstart
    · exact .inr ⟨o, ho, hoid⟩
  rcases mem_seen_look hid with hseen | ⟨e, he, hk, rfl⟩
  · exact hbefore hseen
  · by_cases hseen : e.source.id ∈ j.seen
    · exact hbefore hseen
    · exact .inr ⟨e.source, inv.met_of_pending he hk hseen, rfl⟩

/-- **What the walk sees is met.** -/
theorem met_of_mem_seen_run (inv : Invariant ctx g root start [] j.toFrontier)
    (hid : id ∈ (run ctx g root j).1.seen) : id = start ∨ ∃ o, Met g start o ∧ o.id = id := by
  fun_induction Journal.run ctx g root j with
  | case1 seen pushed rounds =>
    have hlook : id ∈ (look ctx root [] ⟨⟨seen, []⟩, pushed, rounds⟩).1.seen := hid
    exact met_of_mem_seen_look inv hlook
  | case2 seen next stack pushed rounds last found hlook =>
    have hpop : Invariant ctx g root start (g.incoming next) ⟨seen, stack⟩ := inv.pop
    refine met_of_mem_seen_look (j := ⟨⟨seen, stack⟩, pushed, next :: rounds⟩) hpop ?_
    rwa [hlook]
  | case3 seen next stack pushed rounds k hlook ih =>
    have hpop : Invariant ctx g root start (g.incoming next) ⟨seen, stack⟩ := inv.pop
    have hnext := hpop.look
    rw [look_eq_ok hlook] at hnext
    exact ih hnext hid

end Journal

/-! ## The end of the walk -/

/-- A chain of synchronous references that leads to the id of a module from
`last` through some modules, the nearest first, where the walk goes on. Each of
them is the module that its id stands for. -/
structure Linked (g : ModuleGraph) (m : Module) (through : List Module) (last : Module) :
    Prop where
  chain : (m :: (through ++ [last])).IsChain fun i o => g.SyncEdge o i.id
  passes : ∀ i ∈ through, i.IsPassage

/-- A chain leads from everything that is met. -/
theorem Met.exists_linked {m o : Module} (h : Met g m.id o) : ∃ through, Linked g m through o := by
  induction h with
  | @near o he _ => exact ⟨[], .cons_cons he (.singleton o), nofun⟩
  | @far i o _ hp he _ ih =>
    obtain ⟨through, hchain, hpasses⟩ := ih
    exact ⟨through ++ [i], isChain_snoc hchain he,
      List.forall_mem_append.2 ⟨hpasses, List.forall_mem_singleton.2 hp⟩⟩

/-- **The walk always ends.** It puts no id on the stack twice and never the id
that it starts with, takes off another one in each round, and is at its end
after at most as many rounds as the graph has distinct ids. Every id that it
has seen then is the first one, or a chain of synchronous references leads from
its module, through modules where the walk goes on. -/
theorem walk_ends (ctx : Context) (root : String) {m : Module} (hm : m ∈ g.modules) :
    ∃ last : Journal, Journal.run ctx g root (.ofStart m.id) = (last, outsider? ctx g m root) ∧
      (m.id :: last.pushed).Nodup ∧ last.rounds.Nodup ∧
      last.rounds.length ≤ g.ids.dedup.length ∧
      ∀ id ∈ last.seen, id = m.id ∨ ∃ through o, o.id = id ∧ Linked g m through o := by
  have hkept : Journal.Kept m.id (Journal.run ctx g root (.ofStart m.id)).1 :=
    (Journal.kept_ofStart m.id).run
  have hmet : ∀ id ∈ (Journal.run ctx g root (.ofStart m.id)).1.seen,
      id = m.id ∨ ∃ o, Met g m.id o ∧ o.id = id := fun id hid =>
    Journal.met_of_mem_seen_run invariant_start hid
  have hids : ∀ id ∈ m.id :: (Journal.run ctx g root (.ofStart m.id)).1.pushed,
      id ∈ g.ids.dedup := by
    intro id hid
    rw [List.mem_dedup]
    rcases hmet id (hkept.seen id hid) with rfl | ⟨o, ho, rfl⟩
    · exact List.mem_map_of_mem hm
    · exact List.mem_map_of_mem (ModuleGraph.mem_of_get? ho.get?_eq)
  refine ⟨_, Prod.ext rfl (Journal.run_snd _), hkept.nodup, hkept.nodup_rounds, ?_,
    fun id hid => ?_⟩
  · exact hkept.length_rounds_le.trans (List.subperm_of_subset hkept.nodup hids).length_le
  · rcases hmet id hid with rfl | ⟨o, ho, rfl⟩
    · exact .inl rfl
    · obtain ⟨through, hlinked⟩ := ho.exists_linked
      exact .inr ⟨through, o, rfl, hlinked⟩

/-- A script whose id a later module has too. -/
def earlierScript : Module :=
  { Module.ofSource "subA/b.js" .script with references := [⟨"subA/a.js", .sync⟩] }

/-- Scripts that refer to each other, to themselves and to an id that there is
not. -/
def mutualReferences : ModuleGraph where
  modules :=
    [{ Module.ofSource "subA/a.js" .script with
        references := [⟨"subA/b.js", .sync⟩, ⟨"subA/a.js", .sync⟩, ⟨"nowhere", .sync⟩] },
      earlierScript,
      { Module.ofSource "subA/b.js" .script with
        references := [⟨"subA/a.js", .sync⟩, ⟨"subA/b.js", .sync⟩] }]

/-- Two ids, so at most two rounds. -/
theorem mutual_references_walked :
    earlierScript ∈ mutualReferences.modules ∧
      ∃ last : Journal,
        Journal.run .default mutualReferences "subA" (.ofStart earlierScript.id) =
          (last, outsider? .default mutualReferences earlierScript "subA") ∧
        earlierScript.id ∉ last.pushed ∧ last.rounds.length ≤ 2 := by
  have hm : earlierScript ∈ mutualReferences.modules := by decide
  obtain ⟨last, hrun, hpushed, -, hrounds, -⟩ := walk_ends .default "subA" hm
  exact ⟨hm, last, hrun, (List.nodup_cons.1 hpushed).1, hrounds⟩

end Walk

end SplitBuild
