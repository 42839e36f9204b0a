import SplitBuild.Names
import SplitBuild.Text.Utf8
/-!
# Asset tables

An asset table holds the contents of the files that the bundler emitted,
by their names below the output root. A stage looks at the source of each
asset and says what becomes of it: `rewrite` changes no name
(`mem_rewrite`), and each asset depends on its own source alone
(`getElem?_rewrite`).
-/

namespace SplitBuild

/-- The contents of the emitted files, by name. -/
abbrev AssetTable := NameMap ByteArray

namespace AssetTable

/-- The table of assets inserted in turn. -/
def ofList (assets : List (String × ByteArray)) : AssetTable :=
  assets.foldl (fun t a => t.insert a.1 a.2) ∅

/-- The names, in order. -/
def names (t : AssetTable) : List String := t.keys

/-- The text of an asset. Bytes that are no text are replaced. -/
def source? (t : AssetTable) (name : String) : Option String := t[name]?.map Text.lossy

/-- The source of the only asset of a table is the text it was given. -/
theorem source?_single (name text : String) :
    (ofList [(name, text.toUTF8)]).source? name = some text := by
  rw [source?, ofList, List.foldl_cons, List.foldl_nil, Std.ExtTreeMap.getElem?_insert_self,
    Option.map_some, String.toUTF8, Text.lossy_toByteArray]

/-- A table holds these contents under a name. -/
def holds (t : AssetTable) (name : String) (contents : ByteArray) : Bool :=
  t[name]?.any fun c => c.data = contents.data

/-- What a table holds is what is found in it. -/
theorem holds_iff {t : AssetTable} {name : String} {contents : ByteArray} :
    t.holds name contents ↔ t[name]? = some contents := by
  unfold holds
  cases t[name]? with
  | none => simp
  | some c => simp [ByteArray.ext_iff]

/-- The table with other contents for an asset that it holds. -/
def replace (t : AssetTable) (name : String) (contents : ByteArray) : AssetTable :=
  if t.contains name then t.insert name contents else t

/-- The table in which each asset has the text that `f` makes of its name
and its source. Where `f` makes none, the bytes stay. -/
def rewrite (t : AssetTable) (f : String → String → Option String) : AssetTable :=
  t.map fun name contents =>
    match f name (Text.lossy contents) with
    | some text => text.toUTF8
    | none => contents

/-- A rewritten table has the names it had. -/
@[simp] theorem mem_rewrite {t : AssetTable} {f : String → String → Option String} {name : String} :
    name ∈ t.rewrite f ↔ name ∈ t := Std.ExtTreeMap.mem_map

/-- A rewritten table lists the names it listed. -/
@[simp] theorem names_rewrite (t : AssetTable) (f : String → String → Option String) :
    (t.rewrite f).names = t.names := Std.ExtTreeMap.keys_map

/-- What a rewritten table holds under a name. -/
theorem getElem?_rewrite (t : AssetTable) (f : String → String → Option String) (name : String) :
    (t.rewrite f)[name]? = t[name]?.map fun contents =>
      match f name (Text.lossy contents) with
      | some text => text.toUTF8
      | none => contents := Std.ExtTreeMap.getElem?_map

/-- The source of a rewritten asset. -/
theorem source?_rewrite (t : AssetTable) (f : String → String → Option String) (name : String) :
    (t.rewrite f).source? name = (t.source? name).map fun s => (f name s).getD s := by
  simp only [source?, getElem?_rewrite, Option.map_map]
  congr 1
  funext contents
  simp only [Function.comp_apply]
  cases f name (Text.lossy contents) <;> simp

theorem rewrite_eq_self {t : AssetTable} {f : String → String → Option String}
    (h : ∀ name source, t.source? name = some source → f name source = none) :
    t.rewrite f = t := by
  refine Std.ExtTreeMap.ext_getElem? fun name => ?_
  rw [getElem?_rewrite]
  cases hcontents : t[name]? with
  | none => rfl
  | some contents =>
    have hnone := h name (Text.lossy contents) (by rw [source?, hcontents, Option.map_some])
    rw [Option.map_some, hnone]

/-- An asset of a rewritten table is as it was, or has its new text. -/
theorem source_of_rewrite {t : AssetTable} {f : String → String → Option String}
    {name source : String} (h : (t.rewrite f).source? name = some source) :
    ∃ old, t.source? name = some old ∧
      (f name old = none ∧ source = old ∨ f name old = some source) := by
  rw [source?_rewrite, Option.map_eq_some_iff] at h
  obtain ⟨old, hold, rfl⟩ := h
  refine ⟨old, hold, ?_⟩
  cases f name old with
  | none => exact .inl ⟨rfl, rfl⟩
  | some text => exact .inr rfl

end AssetTable

end SplitBuild
