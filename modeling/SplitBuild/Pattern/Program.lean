import SplitBuild.Pattern
/-!
# Programs of patterns

A pattern becomes a list of instructions, each of which has a number. An
instruction takes a character, or says where to go on. The instructions of
a pattern lead from the first one to the place behind the last one, along
one way for each stretch that the pattern describes; where two ways part,
the preferred one stands first.
-/

namespace SplitBuild

/-- A step on the way through a pattern. -/
inductive Instruction where
  /-- A character that passes the test is taken. -/
  | take (test : CharTest)
  /-- The way parts, the first branch preferred. -/
  | fork (first second : Nat)
  /-- The way goes on elsewhere. -/
  | jump (target : Nat)
  /-- A stretch that is kept begins. -/
  | opening (name : String)
  /-- A stretch that is kept ends. -/
  | closing (name : String)
  /-- The pattern has matched. -/
  | accept
  deriving DecidableEq, Repr

/-- The instructions of a pattern, by their numbers. -/
abbrev Program := Array Instruction

namespace Pattern

/-- Whether to repeat once more. -/
def again (greedy : Bool) (body behind : Nat) : Instruction :=
  if greedy then .fork body behind else .fork behind body

/-- The instructions of a pattern, where `start` is the number of the
first one. -/
def instructions : Pattern → Nat → List Instruction
  | empty, _ => []
  | one test, _ => [.take test]
  | seq p q, start =>
    let first := p.instructions start
    first ++ q.instructions (start + first.length)
  | alt p q, start =>
    let first := p.instructions (start + 1)
    let other := start + 1 + first.length + 1
    let second := q.instructions other
    .fork (start + 1) other :: first ++ .jump (other + second.length) :: second
  | atLeastOnce greedy p, start =>
    let body := p.instructions start
    body ++ [again greedy start (start + body.length + 1)]
  | group name p, start => .opening name :: p.instructions (start + 1) ++ [.closing name]

/-- The program of a pattern. -/
def program (p : Pattern) : Program := (p.instructions 0 ++ [Instruction.accept]).toArray

end Pattern

end SplitBuild
