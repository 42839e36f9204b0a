import SplitBuild.Json.Document
import SplitBuild.Json.Numeral
/-!
# Reading JSON

`Document.read?` reads a whole text in strict JSON: no comments, no comma
before a closing bracket, and only space, tab, carriage return and line
feed between tokens. The readers of the parts return what they read and
the text that remains. The readers of containers take an allowance of
steps that `read?` computes from the length of the text.
-/

namespace SplitBuild

namespace Json

namespace Reader

/-! ## Blanks and digits -/

/-- Space, tab, carriage return and line feed. -/
def isSpace (c : Char) : Bool := c = ' ' || c = '\n' || c = '\t' || c = '\r'

/-- A text without the blanks at its front. -/
def skip (s : List Char) : List Char := s.dropWhile isSpace

/-- The value of a decimal digit. -/
def digit? (c : Char) : Option Nat :=
  if '0' ≤ c ∧ c ≤ '9' then some (c.toNat - 48) else none

/-- The digits at the front of a text, and what follows them. -/
def digits : List Char → List Nat × List Char
  | [] => ([], [])
  | c :: cs =>
    match digit? c with
    | none => ([], c :: cs)
    | some d => (d :: (digits cs).1, (digits cs).2)

/-- The natural of decimal digits. -/
def natural (ds : List Nat) : Nat := ds.foldl (fun n d => 10 * n + d) 0

/-- The value of a hexadecimal digit of either case. -/
def hexValue? (c : Char) : Option Nat :=
  if '0' ≤ c ∧ c ≤ '9' then some (c.toNat - 48)
  else if 'a' ≤ c ∧ c ≤ 'f' then some (c.toNat - 87)
  else if 'A' ≤ c ∧ c ≤ 'F' then some (c.toNat - 55)
  else none

/-- The value of four hexadecimal digits. -/
def unit? (a b c d : Char) : Option Nat := do
  let a ← hexValue? a
  let b ← hexValue? b
  let c ← hexValue? c
  let d ← hexValue? d
  return ((a * 16 + b) * 16 + c) * 16 + d

/-! ## Strings -/

/-- A piece of a string: a character, or an escape that names a unit of
sixteen bits. -/
inductive Piece where
  | char (c : Char)
  | unit (n : Nat)
  deriving DecidableEq, Repr

/-- The character that a letter stands for after a backslash. -/
def unescape? (c : Char) : Option Char :=
  if c = '"' then some '"'
  else if c = '\\' then some '\\'
  else if c = '/' then some '/'
  else if c = 'b' then some '\x08'
  else if c = 'f' then some '\x0c'
  else if c = 'n' then some '\n'
  else if c = 'r' then some '\r'
  else if c = 't' then some '\t'
  else none

/-- The pieces up to the closing quote, and what follows it. -/
def pieces? : List Char → Option (List Piece × List Char)
  | [] => none
  | '"' :: rest => some ([], rest)
  | '\\' :: 'u' :: a :: b :: c :: d :: rest => do
    let n ← unit? a b c d
    let (ps, rest) ← pieces? rest
    return (.unit n :: ps, rest)
  | '\\' :: letter :: rest => do
    let c ← unescape? letter
    let (ps, rest) ← pieces? rest
    return (.char c :: ps, rest)
  | c :: rest =>
    if c.toNat < 0x20 ∨ c = '\\' then none
    else (pieces? rest).map fun p => (.char c :: p.1, p.2)

/-- A unit is the first half of a surrogate pair. -/
def isHighHalf (n : Nat) : Bool := 0xD800 ≤ n && n < 0xDC00

/-- A unit is the second half of a surrogate pair. -/
def isLowHalf (n : Nat) : Bool := 0xDC00 ≤ n && n < 0xE000

/-- The characters of some pieces; none where half of a pair stands alone. -/
def chars? : List Piece → Option (List Char)
  | [] => some []
  | .char c :: ps => (chars? ps).map (c :: ·)
  | .unit n :: .unit m :: ps =>
    if isHighHalf n then
      if isLowHalf m then
        (chars? ps).map (Char.ofNat (0x10000 + (n - 0xD800) * 0x400 + (m - 0xDC00)) :: ·)
      else none
    else if isLowHalf n then none
    else (chars? (.unit m :: ps)).map (Char.ofNat n :: ·)
  | .unit n :: ps =>
    if isHighHalf n || isLowHalf n then none else (chars? ps).map (Char.ofNat n :: ·)

/-- A string after its opening quote: its text, where it has one, and what
follows the closing quote. -/
def text? (s : List Char) : Option (Option String × List Char) :=
  (pieces? s).map fun p => ((chars? p.1).map String.ofList, p.2)

/-! ## Numerals -/

/-- The digits after a point, where the text goes on with one. -/
def fraction? : List Char → Option (List Nat × List Char)
  | '.' :: rest =>
    let (ds, rest) := digits rest
    if ds.isEmpty then none else some (ds, rest)
  | s => some ([], s)

/-- The digits of an exponent after its sign. -/
def signedExponent? (isNegative : Bool) (s : List Char) : Option (Option Int × List Char) :=
  let (ds, rest) := digits s
  if ds.isEmpty then none
  else some (some (if isNegative then -(natural ds : Int) else natural ds), rest)

/-- The exponent, where the text goes on with one. -/
def exponent? : List Char → Option (Option Int × List Char)
  | 'e' :: '-' :: rest | 'E' :: '-' :: rest => signedExponent? true rest
  | 'e' :: '+' :: rest | 'E' :: '+' :: rest => signedExponent? false rest
  | 'e' :: rest | 'E' :: rest => signedExponent? false rest
  | s => some (none, s)

/-- A numeral after its sign. A zero in front stands alone. -/
def unsigned? (isNegative : Bool) (s : List Char) : Option (Numeral × List Char) := do
  let (whole, rest) := digits s
  if whole.isEmpty ∨ (whole.head? = some 0 ∧ whole.length ≠ 1) then none
  else
    let (fraction, rest) ← fraction? rest
    let (exponent, rest) ← exponent? rest
    return (⟨isNegative, whole, fraction, exponent⟩, rest)

/-- A numeral. -/
def numeral? : List Char → Option (Numeral × List Char)
  | '-' :: rest => unsigned? true rest
  | s => unsigned? false s

/-! ## Documents -/

/-- The document of a number that may lie beyond the finite ones. -/
def ofNumber : Option Number → Document
  | some n => .number n
  | none => .unreadable

/-- The document of a string that may hold half of a pair. -/
def ofText : Option String → Document
  | some s => .string s
  | none => .unreadable

mutual

/-- A document at the front of a text without blanks in front. -/
def document? : Nat → List Char → Option (Document × List Char)
  | 0, _ => none
  | _ + 1, '"' :: rest => (text? rest).map fun p => (ofText p.1, p.2)
  | steps + 1, '[' :: rest =>
    match skip rest with
    | ']' :: rest => some (.array [], rest)
    | rest => (items? steps rest).map fun p => (.array p.1, p.2)
  | steps + 1, '{' :: rest =>
    match skip rest with
    | '}' :: rest => some (.object [], rest)
    | rest => (entries? steps rest).map fun p => (.object p.1, p.2)
  | _ + 1, 'n' :: 'u' :: 'l' :: 'l' :: rest => some (.null, rest)
  | _ + 1, 't' :: 'r' :: 'u' :: 'e' :: rest => some (.bool true, rest)
  | _ + 1, 'f' :: 'a' :: 'l' :: 's' :: 'e' :: rest => some (.bool false, rest)
  | _ + 1, s => (numeral? s).map fun p => (ofNumber p.1.number?, p.2)

/-- The items of an array up to its closing bracket. -/
def items? : Nat → List Char → Option (List Document × List Char)
  | 0, _ => none
  | steps + 1, s => do
    let (d, rest) ← document? steps s
    match skip rest with
    | ',' :: rest =>
      let (ds, rest) ← items? steps (skip rest)
      return (d :: ds, rest)
    | ']' :: rest => return ([d], rest)
    | _ => none

/-- The entries of an object up to its closing bracket. -/
def entries? : Nat → List Char → Option (List (Option String × Document) × List Char)
  | 0, _ => none
  | steps + 1, '"' :: rest => do
    let (k, rest) ← text? rest
    match skip rest with
    | ':' :: rest =>
      let (d, rest) ← document? steps (skip rest)
      match skip rest with
      | ',' :: rest =>
        let (es, rest) ← entries? steps (skip rest)
        return ((k, d) :: es, rest)
      | '}' :: rest => return ([(k, d)], rest)
      | _ => none
    | _ => none
  | _ + 1, _ => none

end

/-- An allowance of steps that suffices for a text: a character is read
after at most two steps. -/
def allowance (s : List Char) : Nat := 2 * s.length + 2

end Reader

namespace Document

/-- How many containers may stand inside each other, the outermost one
counted. -/
def maxDepth : Nat := 127

/-- The document of a whole text in strict JSON. -/
def read? (text : String) : Option Document :=
  let s := text.toList
  match Reader.document? (Reader.allowance s) (Reader.skip s) with
  | some (d, rest) => if (Reader.skip rest).isEmpty then some (d.clip maxDepth) else none
  | none => none

end Document

/-- The value of a whole text in strict JSON. -/
def Value.read? (text : String) : Option Value := (Document.read? text).bind Document.value?

end Json

end SplitBuild
