import SplitBuild.Pattern
/-!
# Reading patterns

A pattern is written in the usual way: letters stand for themselves, a dot
for any character of a line, `d`, `w` and `s` behind a backslash for
classes, a bar between alternatives, and parentheses around groups, which
may have a name. A star, a plus or a question mark repeats what stands
before it; a question mark behind it asks for as few repetitions as
possible. The text is cut into tokens, and the tokens are collected level
by level.
-/

namespace SplitBuild

namespace Pattern

/-! ## Tokens -/

/-- How often something is repeated. -/
inductive Repetition where
  | many
  | atLeastOne
  | atMostOne
  deriving DecidableEq, Repr

/-- A piece of a written pattern. -/
inductive Token where
  | one (test : CharTest)
  | repetition (r : Repetition) (greedy : Bool)
  | bar
  /-- The begin of a group, and its name if it has one. -/
  | opening (name : Option String)
  | closing
  deriving DecidableEq, Repr

/-- The classes behind a backslash. -/
def classTest? : Char → Option CharTest
  | 'd' => some (.within .digit)
  | 'D' => some (.outside .digit)
  | 'w' => some (.within .word)
  | 'W' => some (.outside .word)
  | 's' => some (.within .blank)
  | 'S' => some (.outside .blank)
  | _ => none

/-- The control characters behind a backslash. -/
def controlTest? : Char → Option CharTest
  | 'n' => some (.exactly '\n')
  | 't' => some (.exactly '\t')
  | 'r' => some (.exactly '\r')
  | 'f' => some (.exactly '\x0c')
  | 'v' => some (.exactly '\x0b')
  | 'a' => some (.exactly '\x07')
  | _ => none

/-- A character that stands for itself behind a backslash. -/
def isEscapable (c : Char) : Bool := c.toNat < 128 && !c.isAlphanum && c ≠ '<' && c ≠ '>'

/-- What a character means behind a backslash. -/
def escaped? (c : Char) : Option CharTest :=
  match classTest? c, controlTest? c with
  | some test, _ => some test
  | none, some test => some test
  | none, none => if isEscapable c then some (.exactly c) else none

/-- A character that means nothing of its own where it stands. -/
def isPlain (c : Char) : Bool :=
  c ∉ ['\\', '.', '+', '*', '?', '(', ')', '|', '[', '\x7b', '^', '$']

/-- A character may stand in the name of a group. -/
def isNameChar (c : Char) : Bool := c = '_' || c = '.' || c.isAlphanum

/-- A name may be given to a group. -/
def isGroupName (name : List Char) : Bool :=
  match name with
  | [] => false
  | c :: cs => (c = '_' || c.isAlpha) && cs.all isNameChar

/-- Where the tokens of a text are cut. -/
inductive Cutting where
  | between
  /-- Inside the name of a group, of which these characters are read, the
  latest first. -/
  | name (read : List Char)

/-- The tokens of a text; none where it is no pattern. -/
def tokens? : Cutting → List Char → Option (List Token)
  | .name _, [] => none
  | .name read, '>' :: cs =>
    if isGroupName read.reverse then
      (tokens? .between cs).map (.opening (some (String.ofList read.reverse)) :: ·)
    else none
  | .name read, c :: cs => tokens? (.name (c :: read)) cs
  | .between, [] => some []
  | .between, '(' :: '?' :: 'P' :: '<' :: cs => tokens? (.name []) cs
  | .between, '(' :: '?' :: '<' :: cs => tokens? (.name []) cs
  | .between, '(' :: '?' :: ':' :: cs => (tokens? .between cs).map (.opening none :: ·)
  | .between, '(' :: '?' :: _ => none
  | .between, '(' :: cs => (tokens? .between cs).map (.opening none :: ·)
  | .between, ')' :: cs => (tokens? .between cs).map (.closing :: ·)
  | .between, '|' :: cs => (tokens? .between cs).map (.bar :: ·)
  | .between, '.' :: cs => (tokens? .between cs).map (.one .onLine :: ·)
  | .between, '*' :: '?' :: cs => (tokens? .between cs).map (.repetition .many false :: ·)
  | .between, '*' :: cs => (tokens? .between cs).map (.repetition .many true :: ·)
  | .between, '+' :: '?' :: cs => (tokens? .between cs).map (.repetition .atLeastOne false :: ·)
  | .between, '+' :: cs => (tokens? .between cs).map (.repetition .atLeastOne true :: ·)
  | .between, '?' :: '?' :: cs => (tokens? .between cs).map (.repetition .atMostOne false :: ·)
  | .between, '?' :: cs => (tokens? .between cs).map (.repetition .atMostOne true :: ·)
  | .between, '\\' :: c :: cs => do
    let test ← escaped? c
    let rest ← tokens? .between cs
    return .one test :: rest
  | .between, c :: cs =>
    if isPlain c then (tokens? .between cs).map (.one (.exactly c) :: ·) else none

/-! ## Levels -/

/-- A group that is being read. -/
structure Level where
  name : Option String
  /-- The finished alternatives, the latest first. -/
  branches : List Pattern
  /-- The items of the alternative that is being read, the latest first. -/
  items : List Pattern

namespace Level

/-- A group of which nothing is read. -/
def start (name : Option String) : Level := ⟨name, [], []⟩

/-- The level with one more item. -/
def push (level : Level) (p : Pattern) : Level := { level with items := p :: level.items }

/-- The alternatives, in order. -/
def alternatives (level : Level) : List Pattern :=
  (chain level.items.reverse :: level.branches).reverse

/-- The pattern of a group. -/
def close (level : Level) : Pattern :=
  let body := choice level.alternatives
  match level.name with
  | some name => .group name body
  | none => body

end Level

/-- A pattern repeated. -/
def repeatedBy (r : Repetition) (greedy : Bool) (p : Pattern) : Pattern :=
  match r with
  | .many => many greedy p
  | .atLeastOne => .atLeastOnce greedy p
  | .atMostOne => maybe greedy p

/-- The pattern of some tokens, read inside a level that stands inside
others, the innermost first. -/
def collect? : Level → List Level → List Token → Option Pattern
  | level, [], [] => some level.close
  | _, _ :: _, [] => none
  | level, outer, .one test :: ts => collect? (level.push (.one test)) outer ts
  | level, outer, .bar :: ts =>
    collect? ⟨level.name, chain level.items.reverse :: level.branches, []⟩ outer ts
  | level, outer, .repetition r greedy :: ts =>
    match level.items with
    | [] => none
    | p :: items => collect? { level with items := repeatedBy r greedy p :: items } outer ts
  | level, outer, .opening name :: ts => collect? (.start name) (level :: outer) ts
  | level, outer, .closing :: ts =>
    match outer with
    | [] => none
    | above :: outer => collect? (above.push level.close) outer ts

/-- The names of the groups of a pattern. -/
def groupNames (tokens : List Token) : List String :=
  tokens.filterMap fun
    | .opening name => name
    | _ => none

/-- The pattern that a text describes. No two groups have one name. -/
def read? (text : String) : Option Pattern := do
  let tokens ← tokens? .between text.toList
  if (groupNames tokens).Nodup then collect? (.start none) [] tokens else none

end Pattern

/-! ## Written patterns -/

/-- A pattern with the text it was read from, which messages show. -/
structure WrittenPattern where
  text : String
  pattern : Pattern
  /-- The text describes the pattern. -/
  read_text : Pattern.read? text = some pattern

namespace WrittenPattern

/-- The pattern of a text that describes one. -/
def ofText? (text : String) : Option WrittenPattern :=
  match h : Pattern.read? text with
  | some pattern => some ⟨text, pattern, h⟩
  | none => none

/-- The pattern of a text that is known to describe one. -/
def ofText (text : String) (h : (Pattern.read? text).isSome) : WrittenPattern :=
  ⟨text, (Pattern.read? text).get h, by simp⟩

end WrittenPattern

end SplitBuild
