import SplitBuild.AssetTable
import SplitBuild.Proofs.Text.ByteOrder
/-!
# Tables and rewritings

A table lists its names in the order of their bytes (`names_pairwise`). A
rewriting gives an asset its new text, where it has one, and leaves the
bytes otherwise (`getElem?_rewrite_of_source?`). What it makes of an asset
depends on that asset alone, so rewritings of different assets are one
rewriting and commute (`rewrite_rewrite`, `rewrite_comm`). A table with
another text for one asset is a rewriting of that asset
(`replace_eq_rewrite`).
-/

namespace SplitBuild

namespace AssetTable

variable {assets assets' : AssetTable} {f g : String → String → Option String}
variable {name source : String}

/-! ## Names -/

theorem mem_names_iff : name ∈ assets.names ↔ name ∈ assets := Std.ExtTreeMap.mem_keys

theorem mem_iff_exists : name ∈ assets ↔ ∃ contents, assets[name]? = some contents := by
  rw [Std.ExtTreeMap.mem_iff_isSome_getElem?, Option.isSome_iff_exists]

theorem mem_iff_of_names_eq (h : assets.names = assets'.names) : name ∈ assets ↔ name ∈ assets' := by
  rw [← mem_names_iff, ← mem_names_iff, h]

/-- Names are listed in the order of their bytes. -/
theorem names_pairwise (assets : AssetTable) :
    assets.names.Pairwise fun m n => Text.bytes m < Text.bytes n :=
  Std.ExtTreeMap.ordered_keys.imp Text.bytes_lt_of_compare

/-! ## Sources -/

/-- An asset with a source is in the table. -/
theorem mem_of_source? (h : assets.source? name = some source) : name ∈ assets := by
  obtain ⟨contents, hcontents, -⟩ := Option.map_eq_some_iff.1 h
  exact mem_iff_exists.2 ⟨contents, hcontents⟩

/-- The source of an asset is read off its contents. -/
theorem source?_congr (h : assets[name]? = assets'[name]?) :
    assets.source? name = assets'.source? name := by
  rw [source?, source?, h]

/-- An asset that holds a text has it as its source. -/
theorem source?_of_getElem? {text : String} (h : assets[name]? = some text.toUTF8) :
    assets.source? name = some text := by
  rw [source?, h, Option.map_some, String.toUTF8_eq_toByteArray, Text.lossy_toByteArray]

/-! ## Rewritings -/

/-- The contents of a rewritten asset are its new text, where it has one, and
what they were otherwise. -/
theorem getElem?_rewrite_of_source? (h : assets.source? name = some source) :
    (assets.rewrite f)[name]? = ((f name source).map String.toUTF8).or assets[name]? := by
  obtain ⟨contents, hcontents, rfl⟩ := Option.map_eq_some_iff.1 h
  rw [getElem?_rewrite, hcontents, Option.map_some]
  cases f name (Text.lossy contents) with
  | none => rfl
  | some text => rfl

/-- Where nothing becomes of an asset its contents stay. -/
theorem getElem?_rewrite_eq_self
    (h : ∀ source, assets.source? name = some source → f name source = none) :
    (assets.rewrite f)[name]? = assets[name]? := by
  cases hsource : assets.source? name with
  | some source => rw [getElem?_rewrite_of_source? hsource, h source hsource, Option.map_none,
      Option.none_or]
  | none =>
    have hnone : assets[name]? = none := Option.map_eq_none_iff.1 hsource
    rw [getElem?_rewrite, hnone, Option.map_none]

/-- So do they where nothing would become of any contents. -/
theorem getElem?_rewrite_of_none (h : ∀ source, f name source = none) :
    (assets.rewrite f)[name]? = assets[name]? :=
  getElem?_rewrite_eq_self fun source _ => h source

/-- What a rewriting makes of an asset depends on that asset. -/
theorem getElem?_rewrite_congr (h : assets[name]? = assets'[name]?)
    (hf : ∀ source, f name source = g name source) :
    (assets.rewrite f)[name]? = (assets'.rewrite g)[name]? := by
  simp only [getElem?_rewrite, h, hf]

/-- Rewritings that do the same with the sources of a table are the same
there. -/
theorem rewrite_congr
    (h : ∀ name source, assets.source? name = some source → f name source = g name source) :
    assets.rewrite f = assets.rewrite g := by
  refine Std.ExtTreeMap.ext_getElem? fun name => ?_
  cases hsource : assets.source? name with
  | some source =>
    rw [getElem?_rewrite_of_source? hsource, getElem?_rewrite_of_source? hsource,
      h name source hsource]
  | none =>
    have hnone : assets[name]? = none := Option.map_eq_none_iff.1 hsource
    rw [getElem?_rewrite, getElem?_rewrite, hnone, Option.map_none, Option.map_none]

/-- The contents of an asset change where its new text is not its source. -/
theorem getElem?_rewrite_ne {text : String} (h : assets.source? name = some source)
    (htext : f name source = some text) (hne : text ≠ source) :
    (assets.rewrite f)[name]? ≠ assets[name]? := by
  intro heq
  rw [getElem?_rewrite_of_source? h, htext, Option.map_some, Option.some_or] at heq
  have hsource : assets.source? name = some text := source?_of_getElem? heq.symm
  rw [h] at hsource
  exact hne (Option.some.inj hsource).symm

/-- A table with another text for one asset is a rewriting of that asset. -/
theorem replace_eq_rewrite (h : name ∈ assets) (text : String) :
    assets.replace name text.toUTF8 =
      assets.rewrite fun other _ => if other = name then some text else none := by
  refine Std.ExtTreeMap.ext_getElem? fun other => ?_
  rw [replace, if_pos (Std.ExtTreeMap.mem_iff_contains.1 h), Std.ExtTreeMap.getElem?_insert]
  by_cases hother : name = other
  · subst hother
    obtain ⟨contents, hcontents⟩ := mem_iff_exists.1 h
    rw [if_pos (compare_eq_iff_eq.2 rfl), getElem?_rewrite, hcontents, Option.map_some, if_pos rfl]
  · rw [if_neg (mt compare_eq_iff_eq.1 hother)]
    exact (getElem?_rewrite_of_none fun _ => if_neg (Ne.symm hother)).symm

/-- **Rewritings of different assets are one rewriting.** -/
theorem rewrite_rewrite
    (h : ∀ name, (∀ source, f name source = none) ∨ ∀ source, g name source = none) :
    (assets.rewrite f).rewrite g = assets.rewrite fun name source =>
      (f name source).or (g name source) := by
  refine Std.ExtTreeMap.ext_getElem? fun name => ?_
  rcases h name with hf | hg
  · have hkept : (assets.rewrite f)[name]? = assets[name]? := getElem?_rewrite_of_none hf
    exact getElem?_rewrite_congr hkept fun source => by rw [hf, Option.none_or]
  · rw [getElem?_rewrite_of_none hg]
    exact getElem?_rewrite_congr rfl fun source => by rw [hg, Option.or_none]

/-- So they commute. -/
theorem rewrite_comm
    (h : ∀ name, (∀ source, f name source = none) ∨ ∀ source, g name source = none) :
    (assets.rewrite f).rewrite g = (assets.rewrite g).rewrite f := by
  rw [rewrite_rewrite h, rewrite_rewrite fun name => (h name).symm]
  refine rewrite_congr fun name source _ => ?_
  rcases h name with hf | hg
  · rw [hf, Option.none_or, Option.or_none]
  · rw [hg, Option.none_or, Option.or_none]

end AssetTable

end SplitBuild
