import SplitBuild.Decimal.Binary64
import SplitBuild.Keyed
/-!
# JSON values

A value keeps the entries of an object in order and tells integers from
binary64 numbers, since both are written differently. Equality of values
is decidable, entry by entry in order.
-/

namespace SplitBuild

namespace Json

/-- A number: an integer that fits sixty-four bits with or without a sign,
or a binary64 number. -/
inductive Number where
  | int (i : Int)
  | float (x : Binary64)
  deriving DecidableEq, Repr

/-- A JSON value. -/
inductive Value where
  | null
  | bool (b : Bool)
  | number (n : Number)
  | string (s : String)
  | array (items : List Value)
  | object (entries : List (String × Value))
  deriving Repr

/-- The entries of an object. -/
abbrev Object := Keyed Value

namespace Value

mutual

/-- Equality of values is decidable. -/
def decEq : (a b : Value) → Decidable (a = b)
  | .null, .null => isTrue rfl
  | .bool a, .bool b =>
    if h : a = b then isTrue (by rw [h]) else isFalse (by simpa using h)
  | .number a, .number b =>
    if h : a = b then isTrue (by rw [h]) else isFalse (by simpa using h)
  | .string a, .string b =>
    if h : a = b then isTrue (by rw [h]) else isFalse (by simpa using h)
  | .array a, .array b =>
    match decEqItems a b with
    | isTrue h => isTrue (by rw [h])
    | isFalse h => isFalse (by simpa using h)
  | .object a, .object b =>
    match decEqEntries a b with
    | isTrue h => isTrue (by rw [h])
    | isFalse h => isFalse (by simpa using h)
  | .null, .bool _ | .null, .number _ | .null, .string _ | .null, .array _ | .null, .object _
  | .bool _, .null | .bool _, .number _ | .bool _, .string _ | .bool _, .array _
  | .bool _, .object _ | .number _, .null | .number _, .bool _ | .number _, .string _
  | .number _, .array _ | .number _, .object _ | .string _, .null | .string _, .bool _
  | .string _, .number _ | .string _, .array _ | .string _, .object _ | .array _, .null
  | .array _, .bool _ | .array _, .number _ | .array _, .string _ | .array _, .object _
  | .object _, .null | .object _, .bool _ | .object _, .number _ | .object _, .string _
  | .object _, .array _ => isFalse (by simp)

/-- Equality of lists of values is decidable. -/
def decEqItems : (a b : List Value) → Decidable (a = b)
  | [], [] => isTrue rfl
  | [], _ :: _ | _ :: _, [] => isFalse (by simp)
  | a :: as, b :: bs =>
    match decEq a b with
    | isFalse h => isFalse (by simp [h])
    | isTrue h =>
      match decEqItems as bs with
      | isTrue hs => isTrue (by rw [h, hs])
      | isFalse hs => isFalse (by simp [hs])

/-- Equality of entries is decidable. -/
def decEqEntries : (a b : List (String × Value)) → Decidable (a = b)
  | [], [] => isTrue rfl
  | [], _ :: _ | _ :: _, [] => isFalse (by simp)
  | (k, a) :: as, (j, b) :: bs =>
    if hk : k = j then
      match decEq a b with
      | isFalse h => isFalse (by simp [h])
      | isTrue h =>
        match decEqEntries as bs with
        | isTrue hs => isTrue (by rw [hk, h, hs])
        | isFalse hs => isFalse (by simp [hs])
    else isFalse (by simp [hk])

end

instance : DecidableEq Value := decEq

/-- The text of a value that is a string. -/
def string? : Value → Option String
  | .string s => some s
  | _ => none

/-- The entries of a value that is an object. -/
def entries? : Value → Option Object
  | .object entries => some entries
  | _ => none

theorem eq_object_of_entries? {v : Value} {entries : Object} (h : v.entries? = some entries) :
    v = .object entries := by
  cases v with
  | object es => rw [Option.some.inj h]
  | null | bool | number | string | array => cases h

/-- The value of an optional text: null where there is none. -/
def ofOption : Option String → Value
  | some s => .string s
  | none => .null

/-- The value of a list of texts. -/
def ofStrings (texts : List String) : Value := .array (texts.map .string)

/-- The value of texts under names. -/
def ofTexts (texts : Keyed String) : Value := .object (texts.map fun e => (e.1, .string e.2))

end Value

namespace Object

/-- The entries of an object whose values are strings, in order. -/
def texts (entries : Object) : Keyed String :=
  entries.filterMap fun e => e.2.string?.map fun s => (e.1, s)

/-- The string entries of the object under a name; none where the name
holds no object. -/
def textsAt (entries : Object) (k : String) : Keyed String :=
  match (entries.get? k).bind Value.entries? with
  | some inner => texts inner
  | none => []

end Object

end Json

end SplitBuild
