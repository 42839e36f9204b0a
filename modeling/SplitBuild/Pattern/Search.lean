import SplitBuild.Pattern.Program
/-!
# Searching for patterns

The search goes through the text once and follows all ways through the
program of a pattern side by side, the preferred one first. Two ways that
reach one instruction at one place of the text go on alike, so only the
first of them is kept: no instruction is visited twice at a place, and a
repetition that takes nothing ends there. `Pattern.search?` finds the first
stretch that matches, and of those that begin there the preferred one; what
it finds surrounds the match (`eq_append_of_search?`).
-/

namespace SplitBuild

/-- A way through a program that is being followed. -/
structure Thread where
  /-- The number of the next instruction. -/
  next : Nat
  /-- Where in the text the match begins. -/
  start : Nat
  /-- Where the kept stretches begin and end. -/
  kept : Keyed (Nat × Nat)
  deriving DecidableEq, Repr

/-- A match inside a text. -/
structure Found where
  before : List Char
  text : List Char
  after : List Char
  captures : Captures
  deriving DecidableEq, Repr

namespace Thread

/-- The thread at another instruction. -/
def goTo (t : Thread) (next : Nat) : Thread := { t with next }

/-- The thread behind an instruction that begins a kept stretch. -/
def opened (t : Thread) (name : String) (position : Nat) : Thread :=
  { t with next := t.next + 1, kept := t.kept.put name (position, position) }

/-- The thread behind an instruction that ends a kept stretch. -/
def closed (t : Thread) (name : String) (position : Nat) : Thread :=
  let start := ((t.kept.get? name).map Prod.fst).getD position
  { t with next := t.next + 1, kept := t.kept.put name (start, position) }

/-- A thread has gone through the whole program. -/
def accepts (program : Program) (t : Thread) : Bool := program[t.next]? = some .accept

/-- The thread behind an instruction that takes a character. -/
def take? (program : Program) (c : Char) (t : Thread) : Option Thread :=
  match program[t.next]? with
  | some (.take test) => if test.holds c then some (t.goTo (t.next + 1)) else none
  | _ => none

/-- A visit leaves fewer instructions unseen. -/
theorem length_erase_lt {unseen : List Nat} {i : Nat} (h : i ∈ unseen) :
    (unseen.erase i).length < unseen.length := by
  rw [List.length_erase_of_mem h]
  exact Nat.sub_lt (List.length_pos_of_mem h) Nat.one_pos

/-- The threads that take a character or accept, to which some threads lead
at a place of the text. An instruction that is no longer unseen has been
visited there. -/
def settle (program : Program) (position : Nat) (unseen : List Nat) : List Thread → List Thread
  | [] => []
  | t :: ts =>
    if _h : t.next ∈ unseen then
      let others := unseen.erase t.next
      match program[t.next]? with
      | some (.fork first second) =>
        settle program position others (t.goTo first :: t.goTo second :: ts)
      | some (.jump target) => settle program position others (t.goTo target :: ts)
      | some (.opening name) => settle program position others (t.opened name position :: ts)
      | some (.closing name) => settle program position others (t.closed name position :: ts)
      | some (.take _) | some .accept => t :: settle program position others ts
      | none => settle program position others ts
    else settle program position unseen ts
termination_by ts => (unseen.length, ts.length)
decreasing_by
  iterate 6 exact Prod.Lex.left _ _ (length_erase_lt _h)
  exact Prod.Lex.right _ (Nat.lt_succ_self _)

end Thread

namespace Found

/-- What a thread has found that began at one place of a text and accepts
at another. -/
def ofThread (s : List Char) (t : Thread) (position : Nat) : Found where
  before := s.take t.start
  text := (s.drop t.start).take (position - t.start)
  after := s.drop (t.start + (position - t.start))
  captures := t.kept.map fun e =>
    (e.1, String.ofList ((s.drop e.2.1).take (e.2.2 - e.2.1)))

/-- What is found makes up the text. -/
theorem eq_append_of_ofThread (s : List Char) (t : Thread) (position : Nat) :
    s = (ofThread s t position).before ++ (ofThread s t position).text
      ++ (ofThread s t position).after := by
  simp only [ofThread, ← List.drop_drop, List.append_assoc, List.take_append_drop]

end Found

namespace Pattern

/-- The preferred way to match and where it accepts, among the ways that
are followed and those that begin further on. Behind a way that accepts,
only ways are followed that are preferred to it. At each place of the text
the instructions with the given numbers are unseen. -/
def follow (program : Program) (numbers : List Nat) (best : Option (Thread × Nat))
    (threads : List Thread) (position : Nat) (s : List Char) : Option (Thread × Nat) :=
  let entries := if best.isNone then threads ++ [⟨0, position, []⟩] else threads
  let settled := Thread.settle program position numbers entries
  let best := ((settled.find? (Thread.accepts program)).map fun t => (t, position)).or best
  match s with
  | [] => best
  | c :: cs =>
    let preferred := settled.takeWhile fun t => !t.accepts program
    follow program numbers best (preferred.filterMap (Thread.take? program c)) (position + 1) cs

/-- The preferred match at the first place that has one. -/
def search? (p : Pattern) (s : List Char) : Option Found :=
  let program := p.program
  (follow program (List.range program.size) none [] 0 s).map fun best =>
    Found.ofThread s best.1 best.2

/-- What is found makes up the text. -/
theorem eq_append_of_search? {p : Pattern} {s : List Char} {found : Found}
    (h : p.search? s = some found) : s = found.before ++ found.text ++ found.after := by
  obtain ⟨best, -, rfl⟩ := Option.map_eq_some_iff.1 h
  exact Found.eq_append_of_ofThread s best.1 best.2

end Pattern

end SplitBuild
