import SplitBuild.Json.Document
/-!
# Records in JSON

A record is a value with named fields. It is written as an object, or as
the list of its fields in order, from which the last ones may be left
out. In an object a field may stand once; entries that name no field are
passed over by `Record.ofDocument?` and kept by `extras?`. A field that is
missing takes its default where it has one. Strict and relaxed JSON differ
in what they do with a part of a record that is not asked for.

A record that keeps such entries holds them as `Extras`. The type records
that they name no field and that no name repeats. So they stand behind the
fields where they are inserted one by one into the object of the fields.
-/

namespace SplitBuild

namespace Json

/-- The form of JSON that a record is written in. -/
inductive Dialect where
  /-- A list has no items beyond the last field, and entries that name no
  field may be unreadable. -/
  | strict
  /-- Items of a list beyond the last field may be unreadable, and entries
  that name no field may not. -/
  | relaxed
  deriving DecidableEq, Repr

/-- The documents of the fields that are present. -/
abbrev Record := Keyed Document

namespace Record

variable {α : Type}

/-- The fields among the entries of an object; none where one repeats or a
name is unreadable. -/
def ofEntries? (names : List String) : List (Option String × Document) → Option Record
  | [] => some []
  | (key, d) :: es => do
    let k ← key
    let found ← ofEntries? names es
    if k ∈ names then
      if Keyed.contains found k then none else some ((k, d) :: found)
    else some found

/-- The entries of an object that name no field, with their values. -/
def extras? (names : List String) : List (Option String × Document) → Option (List (String × Value))
  | [] => some []
  | (key, d) :: es => do
    let k ← key
    let rest ← extras? names es
    if k ∈ names then some rest
    else
      let v ← d.value?
      return (k, v) :: rest

/-- The fields of a record that is an object or a list. -/
def ofDocument? (dialect : Dialect) (names : List String) : Document → Option Record
  | .object entries =>
    if dialect = .relaxed ∧ entries.any fun e => e.2.value?.isNone then none
    else ofEntries? names entries
  | .array items =>
    if dialect = .strict ∧ names.length < items.length then none else some (names.zip items)
  | _ => none

/-- A field that must be present. -/
def required (fields : Record) (name : String) (read? : Document → Option α) : Option α :=
  (fields.get? name).bind read?

/-- A field with a default. -/
def optional (fields : Record) (name : String) (default : α) (read? : Document → Option α) :
    Option α :=
  match fields.get? name with
  | some d => read? d
  | none => some default

/-- What an entry does to what is kept: its value goes in front, unless it
names a field. -/
theorem of_extras?_cons {names : List String} {key : Option String} {d : Document}
    {entries : List (Option String × Document)} {es : List (String × Value)}
    (h : extras? names ((key, d) :: entries) = some es) :
    ∃ k rest, key = some k ∧ extras? names entries = some rest ∧
      ((k ∈ names ∧ es = rest) ∨ (k ∉ names ∧ ∃ v, d.value? = some v ∧ es = (k, v) :: rest)) := by
  obtain ⟨k, rfl, h⟩ := Option.bind_eq_some_iff.1 h
  obtain ⟨rest, hrest, h⟩ := Option.bind_eq_some_iff.1 h
  refine ⟨k, rest, rfl, hrest, ?_⟩
  split at h
  · rename_i hname
    exact .inl ⟨hname, (Option.some.inj h).symm⟩
  · rename_i hname
    obtain ⟨v, hv, h⟩ := Option.bind_eq_some_iff.1 h
    exact .inr ⟨hname, v, hv, (Option.some.inj h).symm⟩

/-- What is kept names no field. -/
theorem not_mem_of_extras? {names : List String} {entries : List (Option String × Document)}
    {es : List (String × Value)} (h : extras? names entries = some es) :
    ∀ k ∈ Keyed.keys es, k ∉ names := by
  induction entries generalizing es with
  | nil =>
    obtain rfl := Option.some.inj h
    exact fun k hk => absurd hk List.not_mem_nil
  | cons e entries ih =>
    obtain ⟨k, rest, -, hrest, ⟨-, rfl⟩ | ⟨hname, v, -, rfl⟩⟩ := of_extras?_cons h
    · exact ih hrest
    · exact List.forall_mem_cons.2 ⟨hname, ih hrest⟩

end Record

/-- The entries that a record keeps beside its fields, in order. -/
structure Extras (names : List String) where
  entries : Object
  /-- No name repeats. -/
  nodup : (Keyed.keys entries).Nodup
  /-- No entry names a field. -/
  other : ∀ k ∈ Keyed.keys entries, k ∉ names
  deriving DecidableEq

namespace Extras

/-- No entries. -/
def empty {names : List String} : Extras names :=
  ⟨[], List.nodup_nil, fun _ hk => absurd hk List.not_mem_nil⟩

/-- The entries of an object that name no field: a name that repeats keeps
its first place and takes its last value. -/
def ofEntries? (names : List String) (entries : List (Option String × Document)) :
    Option (Extras names) :=
  (Record.extras? names entries).pmap
    (fun es h => ⟨Keyed.ofList es, Keyed.nodup_keys_ofList es, fun k hk =>
      h k (Keyed.mem_keys_ofList.1 hk)⟩)
    fun _ h => Record.not_mem_of_extras? h

end Extras

namespace Document

variable {α : Type}

/-- A text. -/
def string? : Document → Option String
  | .string s => some s
  | _ => none

/-- A truth value. -/
def bool? : Document → Option Bool
  | .bool b => some b
  | _ => none

/-- Null, or something else. -/
def nullable? (read? : Document → Option α) : Document → Option (Option α)
  | .null => some none
  | d => (read? d).map some

/-- A list, item by item. -/
def list? (read? : Document → Option α) : Document → Option (List α)
  | .array items => items.mapM read?
  | _ => none

/-- The entries of an object, each read. -/
def entries? (read? : Document → Option α) : Document → Option (Keyed α)
  | .object entries =>
    (entries.mapM fun (e : Option String × Document) => do
      let k ← e.1
      let v ← read? e.2
      return (k, v)).map Keyed.ofList
  | _ => none

/-- One of a few named values: its name, or the name over a null. -/
def choice? (named : Keyed α) : Document → Option α
  | .string s => named.get? s
  | .object [(some s, .null)] => named.get? s
  | _ => none

end Document

end Json

end SplitBuild
