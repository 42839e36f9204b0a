import SplitBuild.Decimal.Shortest
import SplitBuild.Json.Value
/-!
# Writing JSON

Two layouts of a value: `compact`, without any white space, and `pretty`,
with one entry a line and two spaces a level. A string is escaped only
where it must be: quotes, backslashes and the controls below U+0020, five
of which have a letter of their own.
-/

namespace SplitBuild

namespace Json

/-- The digit of a value below sixteen, in lower case. -/
def hexDigit (n : Nat) : Char :=
  if n < 10 then Char.ofNat (48 + n) else Char.ofNat (87 + n)

/-- A character as it stands inside a quoted text. -/
def escapeChar (c : Char) : List Char :=
  if c = '"' then ['\\', '"']
  else if c = '\\' then ['\\', '\\']
  else if c = '\x08' then ['\\', 'b']
  else if c = '\x0c' then ['\\', 'f']
  else if c = '\n' then ['\\', 'n']
  else if c = '\r' then ['\\', 'r']
  else if c = '\t' then ['\\', 't']
  else if c.toNat < 0x20 then
    ['\\', 'u', '0', '0', hexDigit (c.toNat / 16), hexDigit (c.toNat % 16)]
  else [c]

/-- The quoted form of a text. -/
def quote (s : String) : List Char := '"' :: (s.toList.flatMap escapeChar ++ ['"'])

namespace Number

/-- The text of a number. -/
def render : Number → List Char
  | .int i => (toString i).toList
  | .float x => x.render.toList

end Number

namespace Value

/-! ## Without white space -/

mutual

/-- A value without white space. -/
def compactChars : Value → List Char
  | .null => ['n', 'u', 'l', 'l']
  | .bool true => ['t', 'r', 'u', 'e']
  | .bool false => ['f', 'a', 'l', 's', 'e']
  | .number n => n.render
  | .string s => quote s
  | .array [] => ['[', ']']
  | .array (v :: vs) => '[' :: (compactChars v ++ compactItems vs)
  | .object [] => ['{', '}']
  | .object ((k, v) :: es) => '{' :: (quote k ++ ':' :: (compactChars v ++ compactEntries es))

/-- The rest of an array after an item. -/
def compactItems : List Value → List Char
  | [] => [']']
  | v :: vs => ',' :: (compactChars v ++ compactItems vs)

/-- The rest of an object after an entry. -/
def compactEntries : List (String × Value) → List Char
  | [] => ['}']
  | (k, v) :: es => ',' :: (quote k ++ ':' :: (compactChars v ++ compactEntries es))

end

/-- The text of a value without white space. -/
def compact (v : Value) : String := String.ofList v.compactChars

/-! ## One entry a line -/

/-- A line break and the indentation of a level. -/
def newline (level : Nat) : List Char := '\n' :: List.replicate (2 * level) ' '

mutual

/-- A value at a level of indentation. -/
def prettyChars (level : Nat) : Value → List Char
  | .null => ['n', 'u', 'l', 'l']
  | .bool true => ['t', 'r', 'u', 'e']
  | .bool false => ['f', 'a', 'l', 's', 'e']
  | .number n => n.render
  | .string s => quote s
  | .array [] => ['[', ']']
  | .array (v :: vs) =>
    '[' :: (newline (level + 1) ++ (prettyChars (level + 1) v ++ prettyItems level vs))
  | .object [] => ['{', '}']
  | .object ((k, v) :: es) =>
    '{' :: (newline (level + 1) ++ (quote k ++ ':' :: ' ' ::
      (prettyChars (level + 1) v ++ prettyEntries level es)))

/-- The rest of an array after an item. -/
def prettyItems (level : Nat) : List Value → List Char
  | [] => newline level ++ [']']
  | v :: vs =>
    ',' :: (newline (level + 1) ++ (prettyChars (level + 1) v ++ prettyItems level vs))

/-- The rest of an object after an entry. -/
def prettyEntries (level : Nat) : List (String × Value) → List Char
  | [] => newline level ++ ['}']
  | (k, v) :: es =>
    ',' :: (newline (level + 1) ++ (quote k ++ ':' :: ' ' ::
      (prettyChars (level + 1) v ++ prettyEntries level es)))

end

/-- The text of a value with one entry a line. -/
def pretty (v : Value) : String := String.ofList (v.prettyChars 0)

end Value

end Json

end SplitBuild
