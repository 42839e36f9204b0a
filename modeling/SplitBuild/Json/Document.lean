import SplitBuild.Json.Value
/-!
# JSON documents

A document is what a reader finds in a text before anyone asks what it
means: entries of an object may repeat, and a part that no value can hold
is kept as `unreadable`. Such a part does no harm where it is passed over
and fails where it is used: `Document.value?` has a value exactly for the
documents without one.
-/

namespace SplitBuild

namespace Json

/-- A text in JSON, taken apart. -/
inductive Document where
  | null
  | bool (b : Bool)
  | number (n : Number)
  | string (s : String)
  | array (items : List Document)
  | object (entries : List (Option String × Document))
  /-- A part no value can hold: a number beyond the finite ones, a string
  with half of a surrogate pair, a container that is nested too deep. -/
  | unreadable
  deriving Repr

namespace Document

/-- What messages say of a text that cannot be read. -/
def syntaxNotice : String := "<parser error>"

mutual

/-- The value of a document. A name that repeats keeps its first place and
takes its last value. -/
def value? : Document → Option Value
  | .null => some .null
  | .bool b => some (.bool b)
  | .number n => some (.number n)
  | .string s => some (.string s)
  | .array items => (values? items).map .array
  | .object entries => (entryValues? entries).map fun es => .object (Keyed.ofList es)
  | .unreadable => none

/-- The values of a list of documents. -/
def values? : List Document → Option (List Value)
  | [] => some []
  | d :: ds => do
    let v ← value? d
    let vs ← values? ds
    return v :: vs

/-- The values of entries. -/
def entryValues? : List (Option String × Document) → Option (List (String × Value))
  | [] => some []
  | (key, d) :: es => do
    let k ← key
    let v ← value? d
    let vs ← entryValues? es
    return (k, v) :: vs

end

mutual

/-- The document of a value. -/
def ofValue : Value → Document
  | .null => .null
  | .bool b => .bool b
  | .number n => .number n
  | .string s => .string s
  | .array items => .array (ofValues items)
  | .object entries => .object (ofEntries entries)

/-- The documents of a list of values. -/
def ofValues : List Value → List Document
  | [] => []
  | v :: vs => ofValue v :: ofValues vs

/-- The entries of the object of some entries. -/
def ofEntries : List (String × Value) → List (Option String × Document)
  | [] => []
  | (k, v) :: es => (some k, ofValue v) :: ofEntries es

end

mutual

/-- A document with the containers below a depth made unreadable. -/
def clip : Nat → Document → Document
  | 0, .array _ => .unreadable
  | 0, .object _ => .unreadable
  | depth + 1, .array items => .array (clipItems depth items)
  | depth + 1, .object entries => .object (clipEntries depth entries)
  | _, leaf => leaf

/-- The items of an array, each clipped. -/
def clipItems (depth : Nat) : List Document → List Document
  | [] => []
  | d :: ds => clip depth d :: clipItems depth ds

/-- The entries of an object, each clipped. -/
def clipEntries (depth : Nat) :
    List (Option String × Document) → List (Option String × Document)
  | [] => []
  | (k, d) :: es => (k, clip depth d) :: clipEntries depth es

end

end Document

end Json

end SplitBuild
