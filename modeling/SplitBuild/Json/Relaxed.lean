import SplitBuild.Json.Reader
import SplitBuild.Text.Letters
/-!
# Reading relaxed JSON

`Document.readRelaxed?` reads the form of JSON that people write by hand:
comments, names without quotes, texts in single quotes, a comma after the
last item, signs in front of numbers, points without a digit on one side,
and hexadecimal integers. A number out of range and a string with half of a
surrogate pair are well formed and `unreadable`.
-/

namespace SplitBuild

namespace Json

namespace Relaxed

open Reader (digits natural hexValue? unit? isHighHalf isLowHalf ofNumber ofText)

/-! ## Blanks and comments -/

/-- A character that ends a line. -/
def isLineEnd (c : Char) : Bool :=
  c = '\n' || c = '\r' || c = '\u2028' || c = '\u2029'

/-- White space: the controls that move the pen, the byte order mark, the
space separators and the line ends. -/
def isSpace (c : Char) : Bool :=
  c = '\t' || c = '\x0b' || c = '\x0c' || c = '\uFEFF' || isLineEnd c
    || (Text.isBlank c && c ≠ '\x85')

/-- What a stretch between tokens is part of. -/
inductive Gap where
  | blank
  | line
  | block
  deriving DecidableEq, Repr

/-- A text without the blanks and comments at its front. An unclosed
comment leaves a slash, which starts no token. -/
def skipFrom : Gap → List Char → List Char
  | .blank, '/' :: '/' :: rest => skipFrom .line rest
  | .blank, '/' :: '*' :: rest => skipFrom .block rest
  | .blank, c :: rest => if isSpace c then skipFrom .blank rest else c :: rest
  | .line, c :: rest => skipFrom (if isLineEnd c then .blank else .line) rest
  | .block, '*' :: '/' :: rest => skipFrom .blank rest
  | .block, _ :: rest => skipFrom .block rest
  | .block, [] => ['/']
  | _, [] => []

/-- A text without the blanks and comments at its front. -/
def skip (s : List Char) : List Char := skipFrom .blank s

/-! ## Strings and names -/

/-- The character of a unit of sixteen bits, unless the unit is half of a
surrogate pair. -/
def charOf? (n : Nat) : Option Char :=
  if isHighHalf n || isLowHalf n then none else some (Char.ofNat n)

/-- The character that a letter stands for after a backslash: itself,
unless it has a meaning or is reserved. -/
def unescape? (c : Char) : Option Char :=
  if c = 'b' then some '\x08'
  else if c = 'f' then some '\x0c'
  else if c = 'n' then some '\n'
  else if c = 'r' then some '\r'
  else if c = 't' then some '\t'
  else if c = 'v' then some '\x0b'
  else if c = '0' then some '\x00'
  else if ('1' ≤ c ∧ c ≤ '9') ∨ c = 'x' ∨ c = 'u' then none
  else some c

/-- The characters up to the closing quote, and what follows it. An escape
that names half of a surrogate pair is no character. -/
def body? (close : Char) : List Char → Option (List (Option Char) × List Char)
  | [] => none
  | '\\' :: '\r' :: '\n' :: rest => body? close rest
  | '\\' :: 'u' :: a :: b :: c :: d :: rest => do
    let n ← unit? a b c d
    let (cs, rest) ← body? close rest
    return (charOf? n :: cs, rest)
  | '\\' :: 'x' :: a :: b :: rest => do
    let n ← unit? '0' '0' a b
    let (cs, rest) ← body? close rest
    return (charOf? n :: cs, rest)
  | '\\' :: letter :: rest =>
    if isLineEnd letter then body? close rest
    else do
      let x ← unescape? letter
      let (cs, rest) ← body? close rest
      return (some x :: cs, rest)
  | c :: rest =>
    if c = close then some ([], rest)
    else if isLineEnd c ∨ c = '\\' then none
    else (body? close rest).map fun p => (some c :: p.1, p.2)

/-- The text of some characters, unless one of them is none. -/
def joined (cs : List (Option Char)) : Option String := (cs.mapM id).map String.ofList

/-- A string after its opening quote: its text, where it has one, and what
follows the closing quote. -/
def text? (close : Char) (s : List Char) : Option (Option String × List Char) :=
  (body? close s).map fun p => (joined p.1, p.2)

/-- The characters of an unquoted name, and what follows it. -/
def nameBody : List Char → List (Option Char) × List Char
  | '\\' :: 'u' :: a :: b :: c :: d :: rest =>
    match unit? a b c d with
    | some n => (charOf? n :: (nameBody rest).1, (nameBody rest).2)
    | none => ([], '\\' :: 'u' :: a :: b :: c :: d :: rest)
  | c :: rest =>
    if Text.continuesIdentifier c then (some c :: (nameBody rest).1, (nameBody rest).2)
    else ([], c :: rest)
  | [] => ([], [])

/-- The name of an entry: quoted, or an identifier. -/
def name? : List Char → Option (Option String × List Char)
  | '"' :: rest => text? '"' rest
  | '\'' :: rest => text? '\'' rest
  | c :: rest =>
    if Text.startsIdentifier c ∨ c = '\\' then
      let (cs, rest) := nameBody (c :: rest)
      if cs.isEmpty then none else some (joined cs, rest)
    else none
  | [] => none

/-! ## Numbers -/

/-- The values of the hexadecimal digits at the front of a text, and what
follows them. -/
def hexDigits : List Char → List Nat × List Char
  | [] => ([], [])
  | c :: cs =>
    match hexValue? c with
    | none => ([], c :: cs)
    | some d => (d :: (hexDigits cs).1, (hexDigits cs).2)

/-- A hexadecimal integer after its mark; it stands for a number where it
fits thirty-two bits. -/
def hexadecimal? (s : List Char) : Option (Option Number × List Char) :=
  let (ds, rest) := hexDigits s
  let n : Nat := ds.foldl (fun n d => 16 * n + d) 0
  if ds.isEmpty then none else some (if n < twoTo 32 then some (.int n) else none, rest)

/-- An integer with its sign; it fits sixty-four bits. -/
def integer? (isNegative : Bool) (n : Nat) : Option Number :=
  if isNegative then
    if n ≤ twoTo 63 then some (.int (-n)) else none
  else if n < twoTo 63 then some (.int n) else none

/-- The nearest number to a decimal with its sign. -/
def decimal? (isNegative : Bool) (whole fraction : List Nat) (e : Int) : Option Number :=
  (Binary64.ofDecimal (natural (whole ++ fraction)) (e - fraction.length)).map
    fun x => .float (x.withSign isNegative)

/-- A decimal after its sign: an integer where it has neither point nor
exponent, and otherwise the nearest number. -/
def unsigned? (isNegative : Bool) (s : List Char) : Option (Option Number × List Char) := do
  let (whole, rest) := digits s
  if whole.head? = some 0 ∧ whole.length ≠ 1 then none
  else
    let (point, fraction, rest) :=
      match rest with
      | '.' :: rest => (true, digits rest)
      | _ => (false, [], rest)
    if whole.isEmpty ∧ fraction.isEmpty then none
    else
      let (exponent, rest) ← Reader.exponent? rest
      let n :=
        if point ∨ exponent.isSome then
          decimal? isNegative whole fraction (exponent.getD 0)
        else integer? isNegative (natural whole)
      return (n, rest)

/-- The words that are written like numbers and stand for none. -/
def numberWords : List (List Char) := ["Infinity".toList, "NaN".toList]

/-- A number with a sign. A hexadecimal one must not have a sign. -/
def signed? (isNegative : Bool) (s : List Char) : Option (Option Number × List Char) :=
  match numberWords.find? (·.isPrefixOf s), s with
  | some word, s => some (none, s.drop word.length)
  | none, '0' :: 'x' :: rest | none, '0' :: 'X' :: rest =>
    (hexadecimal? rest).map fun p => (none, p.2)
  | none, s => unsigned? isNegative s

/-- A number, where the text stands for one, and what follows it. -/
def number? : List Char → Option (Option Number × List Char)
  | '-' :: rest => signed? true rest
  | '+' :: rest => signed? false rest
  | '0' :: 'x' :: rest | '0' :: 'X' :: rest => hexadecimal? rest
  | s => signed? false s

/-! ## Documents -/

mutual

/-- A document at the front of a text without blanks in front. -/
def document? : Nat → List Char → Option (Document × List Char)
  | 0, _ => none
  | _ + 1, '"' :: rest => (text? '"' rest).map fun p => (ofText p.1, p.2)
  | _ + 1, '\'' :: rest => (text? '\'' rest).map fun p => (ofText p.1, p.2)
  | steps + 1, '[' :: rest =>
    match skip rest with
    | ']' :: rest => some (.array [], rest)
    | rest => (items? steps rest).map fun p => (.array p.1, p.2)
  | steps + 1, '{' :: rest =>
    match skip rest with
    | '}' :: rest => some (.object [], rest)
    | rest => (entries? steps rest).map fun p => (.object p.1, p.2)
  | _ + 1, 'n' :: 'u' :: 'l' :: 'l' :: rest => some (.null, rest)
  | _ + 1, 't' :: 'r' :: 'u' :: 'e' :: rest => some (.bool true, rest)
  | _ + 1, 'f' :: 'a' :: 'l' :: 's' :: 'e' :: rest => some (.bool false, rest)
  | _ + 1, s => (number? s).map fun p => (ofNumber p.1, p.2)

/-- The items of an array up to its closing bracket. -/
def items? : Nat → List Char → Option (List Document × List Char)
  | 0, _ => none
  | steps + 1, s => do
    let (d, rest) ← document? steps s
    match skip rest with
    | ',' :: rest =>
      match skip rest with
      | ']' :: rest => return ([d], rest)
      | rest =>
        let (ds, rest) ← items? steps rest
        return (d :: ds, rest)
    | ']' :: rest => return ([d], rest)
    | _ => none

/-- The entries of an object up to its closing bracket. -/
def entries? : Nat → List Char → Option (List (Option String × Document) × List Char)
  | 0, _ => none
  | steps + 1, s => do
    let (k, rest) ← name? s
    match skip rest with
    | ':' :: rest =>
      let (d, rest) ← document? steps (skip rest)
      match skip rest with
      | ',' :: rest =>
        match skip rest with
        | '}' :: rest => return ([(k, d)], rest)
        | rest =>
          let (es, rest) ← entries? steps rest
          return ((k, d) :: es, rest)
      | '}' :: rest => return ([(k, d)], rest)
      | _ => none
    | _ => none

end

end Relaxed

/-- The document of a whole text in relaxed JSON. -/
def Document.readRelaxed? (text : String) : Option Document :=
  let s := text.toList
  match Relaxed.document? (Reader.allowance s) (Relaxed.skip s) with
  | some (d, rest) => if (Relaxed.skip rest).isEmpty then some d else none
  | none => none

end Json

end SplitBuild
