import SplitBuild.Manifest.Component
import SplitBuild.Proofs.Classification
import SplitBuild.Proofs.Json.Reading
/-!
# Merging a manifest

A merge lays texts over two objects of a manifest, and laying texts over an
object changes nothing exactly if it holds them already
(`overlay_eq_self_iff`). `inner_merged_usingComponents` and
`inner_merged_componentPlaceholder` say what the two objects are after a
merge. A merge then comes to one of three things: it changes nothing, it
writes the merged manifest, or it fails with the reports on it; there is
one statement for each, of an object and of the text of one.
-/

namespace SplitBuild

open Json

namespace ComponentManifest

variable {ctx : Context} {component key k : String} {fragment : Fragment} {manifest : Object}
variable {texts news : Keyed String}

/-! ## Texts in an object -/

/-- The object under a key of a manifest, empty where there is none. -/
def inner (manifest : Object) (key : String) : Object :=
  ((manifest.get? key).bind Value.entries?).getD []

/-- Texts as the entries of an object. -/
def strings (texts : Keyed String) : Object := texts.map fun e => (e.1, .string e.2)

/-- The object under a key holds texts, the last one of each name. -/
def Holds (manifest : Object) (key : String) (texts : Keyed String) : Prop :=
  ∀ k s, (Keyed.ofList texts).get? k = some s → (inner manifest key).get? k = some (.string s)

theorem inner_of_get? {entries : Object} (h : manifest.get? key = some (.object entries)) :
    inner manifest key = entries := by
  rw [inner, h]
  rfl

/-- An object that is not empty stands there. -/
theorem get?_of_inner_ne_nil (h : inner manifest key ≠ []) :
    manifest.get? key = some (.object (inner manifest key)) := by
  cases hv : manifest.get? key with
  | none => exact absurd (by rw [inner, hv]; rfl) h
  | some v =>
    cases v with
    | object entries => rw [inner_of_get? hv]
    | _ => exact absurd (by rw [inner, hv]; rfl) h

theorem get?_strings (texts : Keyed String) (k : String) :
    (strings texts).get? k = (texts.get? k).map .string := by
  induction texts with
  | nil => rfl
  | cons e es ih =>
    rw [strings, List.map_cons, Keyed.get?, Keyed.get?]
    split
    · rfl
    · exact ih

theorem get?_ofList_strings (texts : Keyed String) (k : String) :
    (Keyed.ofList (strings texts)).get? k = ((Keyed.ofList texts).get? k).map .string := by
  rw [Keyed.get?_ofList, Keyed.get?_ofList, strings, ← List.map_reverse]
  exact get?_strings texts.reverse k

/-- Of texts put into an object the last one of a name is read back. -/
theorem get?_putAll_strings (entries : Object) (texts : Keyed String) (k : String) :
    (entries.putAll (strings texts)).get? k =
      (((Keyed.ofList texts).get? k).map .string).or (entries.get? k) := by
  rw [Keyed.get?_putAll, ← Keyed.get?_ofList, get?_ofList_strings]

theorem strings_append : strings (texts ++ news) = strings texts ++ strings news :=
  List.map_append

theorem textsAt_eq : manifest.textsAt key = Object.texts (inner manifest key) := by
  rw [Object.textsAt, inner]
  cases (manifest.get? key).bind Value.entries? with
  | none => rfl
  | some entries => rfl

/-- The texts under a key are the strings of its object. -/
theorem mem_textsAt_iff {s : String} :
    (k, s) ∈ manifest.textsAt key ↔ (k, .string s) ∈ inner manifest key := by
  rw [textsAt_eq, Object.texts, List.mem_filterMap]
  constructor
  · rintro ⟨⟨j, v⟩, hmem, h⟩
    cases v with
    | string t =>
      obtain ⟨rfl, rfl⟩ := Prod.mk.inj (Option.some.inj h)
      exact hmem
    | _ => cases h
  · intro h
    exact ⟨(k, .string s), h, rfl⟩

/-! ## Laying texts over an object -/

theorem overlay_of_ne_nil (h : texts ≠ []) : overlay manifest key texts =
    manifest.put key (.object ((inner manifest key).putAll (strings texts))) := by
  have hempty : texts.isEmpty = false := by simpa using h
  rw [overlay, hempty]
  rfl

/-- What stands under other keys stays. -/
theorem get?_overlay_of_ne (h : key ≠ k) :
    (overlay manifest key texts).get? k = manifest.get? k := by
  by_cases htexts : texts = []
  · rw [htexts]
    rfl
  · rw [overlay_of_ne_nil htexts, Keyed.get?_put, if_neg h]

theorem inner_overlay_of_ne (h : key ≠ k) :
    inner (overlay manifest key texts) k = inner manifest k := by
  rw [inner, get?_overlay_of_ne h, inner]

theorem inner_overlay : inner (overlay manifest key texts) key =
    (inner manifest key).putAll (strings texts) := by
  by_cases htexts : texts = []
  · rw [htexts]
    rfl
  · rw [overlay_of_ne_nil htexts]
    exact inner_of_get? (by rw [Keyed.get?_put, if_pos rfl])

/-- An object holds texts exactly if putting them changes nothing. -/
theorem holds_iff : Holds manifest key texts ↔
    (inner manifest key).putAll (strings texts) = inner manifest key := by
  rw [Keyed.putAll_eq_self_iff]
  constructor
  · intro h k v hv
    rw [get?_ofList_strings, Option.map_eq_some_iff] at hv
    obtain ⟨s, hs, rfl⟩ := hv
    exact h k s hs
  · intro h k s hs
    refine h k (.string s) ?_
    rw [get?_ofList_strings, hs]
    rfl

/-- **Laying texts over an object changes nothing exactly if it holds
them.** -/
theorem overlay_eq_self_iff : overlay manifest key texts = manifest ↔
    Holds manifest key texts := by
  by_cases htexts : texts = []
  · subst htexts
    exact iff_of_true rfl fun k s h => by cases h
  constructor
  · intro h
    have hinner : inner (overlay manifest key texts) key =
        (inner manifest key).putAll (strings texts) := inner_overlay
    rw [h] at hinner
    exact holds_iff.2 hinner.symm
  · intro h
    -- a text is held, so that an object stands under the key
    obtain ⟨e, es, rfl⟩ := List.exists_cons_of_ne_nil htexts
    have hname : e.1 ∈ Keyed.keys (e :: es) := List.mem_cons_self
    obtain ⟨s, hs⟩ := Option.isSome_iff_exists.1 (Keyed.isSome_get?_ofList_iff.2 hname)
    have hinner : inner manifest key ≠ [] := by
      intro hempty
      have := h _ _ hs
      rw [hempty] at this
      cases this
    rw [overlay_of_ne_nil htexts, holds_iff.1 h]
    exact Keyed.put_eq_self (get?_of_inner_ne_nil hinner)

/-- Texts that were laid over an object are held. -/
theorem holds_overlay : Holds (overlay manifest key texts) key texts := by
  intro k s hs
  rw [inner_overlay, get?_putAll_strings, hs]
  rfl

theorem overlay_overlay : overlay (overlay manifest key texts) key news =
    overlay manifest key (texts ++ news) := by
  by_cases htexts : texts = []
  · rw [htexts]
    rfl
  by_cases hnews : news = []
  · rw [hnews, List.append_nil]
    rfl
  have happend : texts ++ news ≠ [] := List.append_ne_nil_of_left_ne_nil htexts news
  rw [overlay_of_ne_nil hnews, inner_overlay, overlay_of_ne_nil htexts, Keyed.put_put,
    overlay_of_ne_nil happend, strings_append, Keyed.putAll_append]

/-! ## Merging -/

theorem componentPlaceholder_ne : componentPlaceholder ≠ usingComponents := by decide

/-- A merge lays the fragment's components over those in use. -/
theorem inner_merged_usingComponents :
    inner (merged ctx component fragment manifest) usingComponents =
      (inner manifest usingComponents).putAll (strings fragment.usingComponents) := by
  rw [merged, inner_overlay_of_ne componentPlaceholder_ne, inner_overlay,
    inner_overlay_of_ne componentPlaceholder_ne]

/-- What is in use under a tag after a merge. -/
theorem get?_merged_usingComponents :
    (inner (merged ctx component fragment manifest) usingComponents).get? k =
      (((Keyed.ofList fragment.usingComponents).get? k).map .string).or
        ((inner manifest usingComponents).get? k) := by
  rw [inner_merged_usingComponents, get?_putAll_strings]

theorem nodup_keys_merged (hnodup : (Keyed.keys (inner manifest usingComponents)).Nodup) :
    (Keyed.keys (inner (merged ctx component fragment manifest) usingComponents)).Nodup := by
  rw [inner_merged_usingComponents]
  exact Keyed.nodup_keys_putAll hnodup

/-- A merge lays the automatic placeholders over those that are there, and
those of the fragment over both. -/
theorem inner_merged_componentPlaceholder :
    inner (merged ctx component fragment manifest) componentPlaceholder =
      ((inner manifest componentPlaceholder).putAll
        (strings (autoPlaceholders ctx component manifest))).putAll
          (strings fragment.componentPlaceholder) := by
  rw [merged, inner_overlay, inner_overlay_of_ne componentPlaceholder_ne.symm, inner_overlay]

/-- Automatic placeholders stand for the components in use that lie in
another subpackage. -/
theorem mem_keys_autoPlaceholders_iff :
    k ∈ Keyed.keys (autoPlaceholders ctx component manifest) ↔
      ∃ path, (k, .string path) ∈ inner manifest usingComponents ∧
        crosses ctx component (target component path) := by
  simp only [Keyed.keys, autoPlaceholders, List.map_map, List.mem_map, List.mem_filter]
  constructor
  · rintro ⟨⟨j, path⟩, ⟨hmem, hcross⟩, rfl⟩
    exact ⟨path, mem_textsAt_iff.1 hmem, hcross⟩
  · rintro ⟨path, hmem, hcross⟩
    exact ⟨(k, path), ⟨mem_textsAt_iff.2 hmem, hcross⟩, rfl⟩

/-- Every automatic placeholder is the tag of the context. -/
theorem get?_ofList_autoPlaceholders :
    (Keyed.ofList (autoPlaceholders ctx component manifest)).get? k =
      if k ∈ Keyed.keys (autoPlaceholders ctx component manifest) then some ctx.placeholderTag
      else none := by
  split
  · rename_i hk
    obtain ⟨tag, htag⟩ := Option.isSome_iff_exists.1 (Keyed.isSome_get?_ofList_iff.2 hk)
    have hmem := Keyed.mem_of_mem_ofList (Keyed.mem_of_get? htag)
    obtain ⟨e, -, he⟩ := List.mem_map.1 hmem
    obtain ⟨-, rfl⟩ := Prod.mk.inj he
    exact htag
  · rename_i hk
    exact Keyed.get?_ofList_eq_none_iff.2 hk

/-- The placeholder that a merge leaves under a tag that the fragment has
none for. -/
theorem get?_merged_componentPlaceholder (h : k ∉ Keyed.keys fragment.componentPlaceholder) :
    (inner (merged ctx component fragment manifest) componentPlaceholder).get? k =
      if k ∈ Keyed.keys (autoPlaceholders ctx component manifest)
      then some (.string ctx.placeholderTag)
      else (inner manifest componentPlaceholder).get? k := by
  have hnone := Keyed.get?_ofList_eq_none_iff.2 h
  rw [inner_merged_componentPlaceholder, get?_putAll_strings, get?_putAll_strings, hnone,
    get?_ofList_autoPlaceholders]
  split
  · rfl
  · rfl

/-! ## What a merge comes to -/

variable {source text : String} {emitted : String → Bool} {result : Object} {ds : List Diagnostic}

theorem mergeObject_of_changed (h : merged ctx component fragment manifest ≠ manifest) :
    mergeObject ctx component fragment emitted manifest =
      match check ctx component emitted (merged ctx component fragment manifest) with
      | [] => .ok (some (merged ctx component fragment manifest))
      | reports => .error reports := if_neg h

/-- An object is left alone exactly if it is its own merge. -/
theorem mergeObject_eq_none_iff : mergeObject ctx component fragment emitted manifest = .ok none ↔
    merged ctx component fragment manifest = manifest := by
  by_cases h : merged ctx component fragment manifest = manifest
  · exact iff_of_true (if_pos h) h
  · rw [mergeObject_of_changed h]
    refine iff_of_false ?_ h
    cases check ctx component emitted (merged ctx component fragment manifest) with
    | nil => nofun
    | cons report reports => nofun

/-- It gives way to its merge where this is another object and has nothing
to report. -/
theorem mergeObject_eq_some_iff :
    mergeObject ctx component fragment emitted manifest = .ok (some result) ↔
      merged ctx component fragment manifest = result ∧ result ≠ manifest ∧
        check ctx component emitted result = [] := by
  by_cases h : merged ctx component fragment manifest = manifest
  · rw [mergeObject_eq_none_iff.2 h]
    refine iff_of_false nofun ?_
    rintro ⟨rfl, hne, -⟩
    exact hne h
  · rw [mergeObject_of_changed h]
    cases hcheck : check ctx component emitted (merged ctx component fragment manifest) with
    | nil =>
      rw [Except.ok.injEq, Option.some.injEq]
      constructor
      · rintro rfl
        exact ⟨rfl, h, hcheck⟩
      · exact fun hresult => hresult.1
    | cons report reports =>
      refine iff_of_false nofun ?_
      rintro ⟨rfl, -, hnil⟩
      rw [hcheck] at hnil
      cases hnil

/-- It fails where its merge is another object and has something to
report. -/
theorem mergeObject_eq_error_iff :
    mergeObject ctx component fragment emitted manifest = .error ds ↔
      merged ctx component fragment manifest ≠ manifest ∧
        check ctx component emitted (merged ctx component fragment manifest) = ds ∧ ds ≠ [] := by
  by_cases h : merged ctx component fragment manifest = manifest
  · rw [mergeObject_eq_none_iff.2 h]
    exact iff_of_false nofun fun hds => hds.1 h
  · rw [mergeObject_of_changed h]
    cases check ctx component emitted (merged ctx component fragment manifest) with
    | nil =>
      refine iff_of_false nofun ?_
      rintro ⟨-, rfl, hne⟩
      exact hne rfl
    | cons report reports =>
      rw [Except.error.injEq]
      constructor
      · rintro rfl
        exact ⟨h, rfl, List.cons_ne_nil _ _⟩
      · exact fun hds => hds.2.1

/-! ## Merging a text -/

theorem read_eq_ok_iff : read component source = .ok manifest ↔
    Value.read? source = some (.object manifest) := by
  rw [read]
  cases h : Value.read? source with
  | none => simp
  | some v =>
    cases v with
    | object entries => simp
    | _ => simp

/-- The components in use of a manifest that was read have distinct names. -/
theorem nodup_keys_inner (h : Value.read? source = some (.object manifest)) :
    (Keyed.keys (inner manifest key)).Nodup := by
  obtain ⟨-, hentries⟩ := Value.distinct_of_read? h
  by_cases hempty : inner manifest key = []
  · rw [hempty]
    exact List.nodup_nil
  · have hmem := Keyed.mem_of_get? (get?_of_inner_ne_nil hempty)
    exact (Value.distinctEntries_iff.1 hentries _ _ hmem).1

theorem merge_of_read (h : read component source = .ok manifest) :
    merge ctx component source fragment emitted =
      (mergeObject ctx component fragment emitted manifest).map
        (Option.map fun m => (Value.object m).pretty) := by
  rw [merge, h]
  change Except.bind (mergeObject ctx component fragment emitted manifest) _ = _
  cases mergeObject ctx component fragment emitted manifest with
  | error reports => rfl
  | ok result => rfl

/-- A merge leaves a text alone exactly if it changes nothing. -/
theorem merge_eq_none_iff (h : read component source = .ok manifest) :
    merge ctx component source fragment emitted = .ok none ↔
      merged ctx component fragment manifest = manifest := by
  rw [merge_of_read h, ← mergeObject_eq_none_iff]
  cases mergeObject ctx component fragment emitted manifest with
  | error ds => exact iff_of_false nofun nofun
  | ok result =>
    rw [Except.map, Except.ok.injEq, Except.ok.injEq]
    exact Option.map_eq_none_iff

/-- It writes the text of an object that is merged. -/
theorem merge_eq_some_iff (h : read component source = .ok manifest) :
    merge ctx component source fragment emitted = .ok (some text) ↔
      ∃ result, mergeObject ctx component fragment emitted manifest = .ok (some result) ∧
        (Value.object result).pretty = text := by
  rw [merge_of_read h]
  cases mergeObject ctx component fragment emitted manifest with
  | error ds => exact iff_of_false nofun nofun
  | ok result =>
    simp only [Except.map, Except.ok.injEq]
    exact Option.map_eq_some_iff

/-- And it fails where the merge of the object does. -/
theorem merge_eq_error_iff (h : read component source = .ok manifest) :
    merge ctx component source fragment emitted = .error ds ↔
      mergeObject ctx component fragment emitted manifest = .error ds := by
  rw [merge_of_read h]
  cases mergeObject ctx component fragment emitted manifest with
  | error reports => rw [Except.map, Except.error.injEq, Except.error.injEq]
  | ok result => exact iff_of_false nofun nofun

/-- The text of a merge is that of the merged manifest. -/
theorem eq_pretty_of_merge (h : read component source = .ok manifest)
    (hmerge : merge ctx component source fragment emitted = .ok (some text)) :
    text = (Value.object (merged ctx component fragment manifest)).pretty := by
  obtain ⟨result, hresult, rfl⟩ := (merge_eq_some_iff h).1 hmerge
  rw [(mergeObject_eq_some_iff.1 hresult).1]

end ComponentManifest

end SplitBuild
