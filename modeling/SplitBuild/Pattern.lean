import SplitBuild.Keyed
import SplitBuild.Text.Blank
import SplitBuild.Text.Letters
/-!
# Patterns

A pattern describes stretches of a text. Where several stretches fit, a
pattern says which one it prefers: the first branch of an alternative, and
as many repetitions as possible or as few.
-/

namespace SplitBuild

/-- A set of characters with a name. -/
inductive CharClass where
  /-- Decimal digits of all scripts. -/
  | digit
  /-- Letters, marks, digits and connectors. -/
  | word
  /-- White space. -/
  | blank
  deriving DecidableEq, Repr

/-- What is asked of one character. -/
inductive CharTest where
  | exactly (c : Char)
  /-- Everything but the line feed. -/
  | onLine
  | within (cls : CharClass)
  | outside (cls : CharClass)
  deriving DecidableEq, Repr

/-- A description of stretches of a text. -/
inductive Pattern where
  | empty
  | one (test : CharTest)
  | seq (p q : Pattern)
  /-- Either of two, the first one preferred. -/
  | alt (p q : Pattern)
  /-- One repetition or more: as many as possible, or as few. -/
  | atLeastOnce (greedy : Bool) (p : Pattern)
  /-- A stretch that is kept under a name. -/
  | group (name : String) (p : Pattern)
  deriving DecidableEq, Repr

/-- The stretches kept under names. -/
abbrev Captures := Keyed String

namespace CharClass

/-- A character belongs to a class. -/
def holds : CharClass → Char → Bool
  | digit, c => Text.isDecimalDigit c
  | word, c => Text.isWord c
  | blank, c => Text.isBlank c

end CharClass

namespace CharTest

/-- A character passes a test. -/
def holds : CharTest → Char → Bool
  | exactly d, c => c = d
  | onLine, c => c ≠ '\n'
  | within cls, c => cls.holds c
  | outside cls, c => !cls.holds c

end CharTest

namespace Pattern

/-- One occurrence or none. -/
def maybe (greedy : Bool) (p : Pattern) : Pattern := if greedy then alt p empty else alt empty p

/-- Any number of repetitions. -/
def many (greedy : Bool) (p : Pattern) : Pattern := maybe greedy (atLeastOnce greedy p)

/-- One pattern after the other. -/
def chain : List Pattern → Pattern
  | [] => empty
  | [p] => p
  | p :: ps => seq p (chain ps)

/-- The first of some patterns that matches; of none, the empty one. -/
def choice : List Pattern → Pattern
  | [] => empty
  | [p] => p
  | p :: ps => alt p (choice ps)

end Pattern

end SplitBuild
