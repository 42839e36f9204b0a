import SplitBuild.Manifest.Root
import SplitBuild.Options
import SplitBuild.Proofs.Exchange.Records
/-!
# Exchanged subpackages

A page or a subpackage is written with its fields in front and the entries
that it keeps behind them. Such an object is read back, in whatever order
its fields stand (`Subpackage.ofDocument?_append`), where the names in the
kept values are distinct, which holds of all that was read. This covers
what is written for a subpackage and the entry that a root manifest has for
one without pages.

What was read has no other numbers than its document and goes no deeper,
save for a list of pages that was not there to read. So it fits a text, and
**reading undoes writing** for all exchanged types
(`exchanged_types_restored`).
-/

namespace SplitBuild

open Json

/-! ## Unknown fields -/

namespace Json.Value

/-- The entries of an object that name none of the fields, in order. -/
def others (names : List String) : Value → Object
  | .object entries => Record.others names entries
  | _ => []

/-- The items of the list under a name. -/
def itemsAt (k : String) (v : Value) : List Value :=
  match v.entries?.bind (Keyed.get? · k) with
  | some (.array items) => items
  | _ => []

end Json.Value

/-! ## Pages -/

namespace Page

/-- The names in what is kept of a page are distinct throughout. -/
def WellFormed : Page → Prop
  | path _ => True
  | route _ extras => Value.DistinctEntries extras.entries

variable {d : Document} {p : Page}

theorem mem_fieldNames_of_route (s : String) :
    ∀ k ∈ Keyed.keys [("path", Value.string s)], k ∈ fieldNames := fun _ hk => hk

theorem ofDocument?_value (h : p.WellFormed) : ofDocument? (.ofValue p.value) = some p := by
  cases p with
  | path p => rfl
  | route p extras =>
    have hfields : Record.ofEntries? fieldNames
        (Document.ofEntries (("path", .string p) :: extras.entries)) =
          some (Record.ofObject [("path", .string p)]) :=
      Record.ofEntries?_append (mem_fieldNames_of_route p) (by simp [Keyed.keys])
    have hextras : Extras.ofEntries? fieldNames
        (Document.ofEntries (("path", .string p) :: extras.entries)) = some extras :=
      Extras.ofEntries?_append (mem_fieldNames_of_route p) h
    rw [value, Document.ofValue, ofDocument?, hfields, hextras]
    simp [Record.required_ofObject, Keyed.get?]

theorem distinct_value (h : p.WellFormed) : p.value.Distinct := by
  cases p with
  | path p => trivial
  | route p extras =>
    exact Record.distinct_append (mem_fieldNames_of_route p) (by simp [Keyed.keys])
      (by simp [Value.Distinct]) h

/-- How a page is read: of a text, or of an object that has a path. -/
theorem of_ofDocument? (h : ofDocument? d = some p) :
    (∃ s, d = .string s ∧ p = .path s) ∨
      ∃ entries fields s extras, d = .object entries ∧
        Record.ofEntries? fieldNames entries = some fields ∧
        fields.get? "path" = some (.string s) ∧
        Extras.ofEntries? fieldNames entries = some extras ∧ p = .route s extras := by
  cases d with
  | string s => exact .inl ⟨s, rfl, (Option.some.inj h).symm⟩
  | object entries =>
    obtain ⟨fields, hfields, h⟩ := Option.bind_eq_some_iff.1 h
    obtain ⟨s, hs, h⟩ := Option.bind_eq_some_iff.1 h
    obtain ⟨extras, hextras, h⟩ := Option.bind_eq_some_iff.1 h
    obtain ⟨d, hd, hs⟩ := Option.bind_eq_some_iff.1 hs
    obtain rfl := Document.string?_eq_some_iff.1 hs
    exact .inr ⟨entries, fields, s, extras, rfl, hfields, hd, hextras, (Option.some.inj h).symm⟩
  | _ => cases h

theorem wellFormed_of_ofDocument? (h : ofDocument? d = some p) : p.WellFormed := by
  obtain ⟨s, -, rfl⟩ | ⟨entries, fields, s, extras, -, -, -, hextras, rfl⟩ := of_ofDocument? h
  · trivial
  · exact Extras.distinct_of_ofEntries? hextras

/-- A page lies within what it was read of. -/
theorem within_of_ofDocument? (h : ofDocument? d = some p) : p.value.Within d := by
  obtain ⟨s, rfl, rfl⟩ | ⟨entries, fields, s, extras, rfl, hfields, hpath, hextras, rfl⟩ :=
    of_ofDocument? h
  · exact ⟨Nat.le_refl _, fun _ hn => hn⟩
  · exact Value.within_object (Nat.succ_pos _) (List.forall_mem_cons.2
      ⟨Record.inside_of_ofEntries? hfields hpath, Extras.inside_of_ofEntries? hextras⟩)

/-- **The unknown fields of a page survive**, with their values and in
order. -/
theorem others_of_ofDocument? (h : ofDocument? d = some p) :
    ∃ v, d.value? = some v ∧ v.others fieldNames = p.value.others fieldNames := by
  obtain ⟨s, rfl, rfl⟩ | ⟨entries, fields, s, extras, rfl, hfields, hpath, hextras, rfl⟩ :=
    of_ofDocument? h
  · exact ⟨.string s, rfl, rfl⟩
  · have hvalues : ∀ k ∈ fieldNames, ∀ d, fields.get? k = some d → ∃ v, d.value? = some v := by
      intro k hk d hd
      obtain rfl := List.mem_singleton.1 hk
      obtain rfl := Option.some.inj (hpath.symm.trans hd)
      exact ⟨.string s, rfl⟩
    obtain ⟨all, hall, hothers, -⟩ := Record.value?_of_fields hfields hextras hvalues
    exact ⟨.object all, hall, hothers.trans (Record.others_append (mem_fieldNames_of_route s)).symm⟩

end Page

/-! ## Subpackages -/

namespace Subpackage

/-- How subpackages are exchanged. -/
def exchange : Exchange Subpackage := ⟨value, ofDocument?⟩

/-- The names in what is kept of a subpackage and of its pages are distinct
throughout. -/
structure WellFormed (s : Subpackage) : Prop where
  extras : Value.DistinctEntries s.extras.entries
  pages : ∀ p ∈ s.pages, p.WellFormed

variable {d : Document} {s : Subpackage}

/-- **An object that begins with the fields of a subpackage**, in any
order, and goes on with what is kept of it is read as the subpackage. -/
theorem ofDocument?_append (h : s.WellFormed) (front : Object)
    (hfront : ∀ k ∈ Keyed.keys front, k ∈ fieldNames) (hnodup : (Keyed.keys front).Nodup)
    (hroot : front.get? "root" = some (.string s.root))
    (hindependent : front.get? "independent" = if s.independent then some (.bool true) else none)
    (hpages : front.get? "pages" = some (.array (s.pages.map Page.value))) :
    ofDocument? (.ofValue (.object (front ++ s.extras.entries))) = some s := by
  have hpage := Document.list?_ofValue fun p hp => Page.ofDocument?_value (h.pages p hp)
  have hflag : (Record.ofObject front).optional "independent" false Document.bool? =
      some s.independent := by
    rw [Record.optional_ofObject, hindependent]
    cases s.independent <;> rfl
  rw [Document.ofValue, ofDocument?, Record.ofEntries?_append hfront hnodup,
    Extras.ofEntries?_append hfront h.extras]
  simp only [Option.bind_eq_bind, Option.bind_some, hflag, Record.optional_ofObject, hroot,
    hpages, hpage, Document.string?_ofValue]
  rfl

/-- The fields of a subpackage in JSON. -/
def fields (s : Subpackage) : Object :=
  ("root", .string s.root) :: (if s.independent then [("independent", .bool true)] else [])
    ++ [("pages", .array (s.pages.map Page.value))]

theorem value_eq (s : Subpackage) : s.value = .object (s.fields ++ s.extras.entries) := by
  rw [value, fields, List.append_assoc, List.singleton_append]

theorem mem_fieldNames_of_fields (s : Subpackage) :
    ∀ k ∈ Keyed.keys s.fields, k ∈ fieldNames := by
  cases h : s.independent <;> simp [fields, h, Keyed.keys, fieldNames]

theorem nodup_keys_fields (s : Subpackage) : (Keyed.keys s.fields).Nodup := by
  cases h : s.independent <;> simp [fields, h, Keyed.keys]

/-- The fields of the entry that is made of a subpackage without pages. -/
def entryFields (s : Subpackage) : Object :=
  ("root", .string s.root) :: ("pages", .array [])
    :: if s.independent then [("independent", .bool true)] else []

theorem entryWithoutPages_eq (s : Subpackage) :
    RootManifest.entryWithoutPages s = .object (s.entryFields ++ s.extras.entries) := rfl

theorem mem_fieldNames_of_entryFields (s : Subpackage) :
    ∀ k ∈ Keyed.keys s.entryFields, k ∈ fieldNames := by
  cases h : s.independent <;> simp [entryFields, h, Keyed.keys, fieldNames]

theorem nodup_keys_entryFields (s : Subpackage) : (Keyed.keys s.entryFields).Nodup := by
  cases h : s.independent <;> simp [entryFields, h, Keyed.keys]

/-- **A subpackage is read of its document.** -/
theorem ofDocument?_value (h : s.WellFormed) : ofDocument? (.ofValue s.value) = some s := by
  rw [value_eq]
  refine ofDocument?_append h s.fields s.mem_fieldNames_of_fields s.nodup_keys_fields ?_ ?_ ?_
  all_goals cases hflag : s.independent <;> simp [fields, hflag, Keyed.get?]

/-- **The entry that is made of a subpackage without pages is read as the
subpackage.** -/
theorem ofDocument?_entryWithoutPages (h : s.WellFormed) (hpages : s.pages = []) :
    ofDocument? (.ofValue (RootManifest.entryWithoutPages s)) = some s := by
  rw [entryWithoutPages_eq]
  refine ofDocument?_append h s.entryFields s.mem_fieldNames_of_entryFields
    s.nodup_keys_entryFields ?_ ?_ ?_
  all_goals cases hflag : s.independent <;> simp [entryFields, hflag, hpages, Keyed.get?]

theorem mem_fields_cases {e : String × Value} (he : e ∈ s.fields) :
    e.2 = .string s.root ∨ e.2 = .bool true ∨ e.2 = .array (s.pages.map Page.value) := by
  rw [fields, List.cons_append, List.mem_cons, List.mem_append, List.mem_singleton] at he
  rcases he with rfl | he | rfl
  · exact .inl rfl
  · split at he
    · obtain rfl := List.mem_singleton.1 he
      exact .inr (.inl rfl)
    · cases he
  · exact .inr (.inr rfl)

/-- The names in a subpackage are distinct throughout. -/
theorem distinct_value (h : s.WellFormed) : s.value.Distinct := by
  rw [value_eq]
  refine Record.distinct_append s.mem_fieldNames_of_fields s.nodup_keys_fields ?_ h.extras
  intro e he
  rcases mem_fields_cases he with heq | heq | heq
  · exact heq ▸ trivial
  · exact heq ▸ trivial
  · rw [heq, Value.Distinct, Value.distinctItems_iff, List.forall_mem_map]
    exact fun p hp => Page.distinct_value (h.pages p hp)

theorem distinct_entryWithoutPages (h : s.WellFormed) :
    (RootManifest.entryWithoutPages s).Distinct := by
  rw [entryWithoutPages_eq]
  refine Record.distinct_append s.mem_fieldNames_of_entryFields s.nodup_keys_entryFields ?_
    h.extras
  cases hflag : s.independent <;>
    simp [entryFields, hflag, Value.Distinct, Value.DistinctItems]

/-- How a subpackage is read: of an object, by its fields and what is kept
beside them. -/
theorem of_ofDocument? (h : ofDocument? d = some s) :
    ∃ entries fields, d = .object entries ∧
      Record.ofEntries? fieldNames entries = some fields ∧
      fields.optional "root" "" Document.string? = some s.root ∧
      fields.optional "independent" false Document.bool? = some s.independent ∧
      fields.optional "pages" [] (Document.list? Page.ofDocument?) = some s.pages ∧
      Extras.ofEntries? fieldNames entries = some s.extras := by
  cases d with
  | object entries =>
    obtain ⟨fields, hfields, h⟩ := Option.bind_eq_some_iff.1 h
    obtain ⟨root, hroot, h⟩ := Option.bind_eq_some_iff.1 h
    obtain ⟨flag, hflag, h⟩ := Option.bind_eq_some_iff.1 h
    obtain ⟨pages, hpages, h⟩ := Option.bind_eq_some_iff.1 h
    obtain ⟨extras, hextras, h⟩ := Option.bind_eq_some_iff.1 h
    obtain rfl := Option.some.inj h
    exact ⟨entries, fields, rfl, hfields, hroot, hflag, hpages, hextras⟩
  | _ => cases h

theorem wellFormed_of_ofDocument? (h : ofDocument? d = some s) : s.WellFormed := by
  obtain ⟨entries, fields, -, -, -, -, hpages, hextras⟩ := of_ofDocument? h
  refine ⟨Extras.distinct_of_ofEntries? hextras, fun p hp => ?_⟩
  obtain ⟨-, e, -, -, hread⟩ := Record.exists_of_mem_optional hpages hp
  exact Page.wellFormed_of_ofDocument? hread

/-- A subpackage goes no deeper than what it was read of, or than its list
of pages, which is written even where there is none to read. -/
theorem depth_of_ofDocument? (h : ofDocument? d = some s) : s.value.depth ≤ max 2 d.depth := by
  obtain ⟨entries, fields, rfl, hfields, -, -, hpages, hextras⟩ := of_ofDocument? h
  obtain ⟨n, hn⟩ : ∃ n, max 2 (Document.object entries).depth = n + 2 :=
    ⟨max 2 (Document.object entries).depth - 2, by omega⟩
  have hdepth : (Document.object entries).depth ≤ n + 2 := hn ▸ Nat.le_max_right _ _
  have harray : (Value.array (s.pages.map Page.value)).depth ≤ n + 1 := by
    rw [Value.depth_array_le_iff, List.forall_mem_map]
    intro p hp
    obtain ⟨d, e, hd, he, hread⟩ := Record.exists_of_mem_optional hpages hp
    have hp := (Page.within_of_ofDocument? hread).depth
    have he := he.depth
    have hd := (Record.inside_of_ofEntries? hfields hd).depth
    omega
  rw [hn, value_eq, Value.depth_object_le_iff, List.forall_mem_append]
  refine ⟨fun e he => ?_, fun e he => ?_⟩
  · rcases mem_fields_cases he with heq | heq | heq
    · exact heq ▸ Nat.zero_le _
    · exact heq ▸ Nat.zero_le _
    · exact heq ▸ harray
  · have he : e.2.depth < (Document.object entries).depth :=
      (Extras.inside_of_ofEntries? hextras e he).depth
    omega

/-- A subpackage has no other numbers than what it was read of. -/
theorem mem_numbers_of_ofDocument? (h : ofDocument? d = some s) :
    ∀ n ∈ s.value.numbers, n ∈ d.numbers := by
  obtain ⟨entries, fields, rfl, hfields, -, -, hpages, hextras⟩ := of_ofDocument? h
  intro n hn
  rw [value_eq, Value.mem_numbers_object_iff] at hn
  obtain ⟨e, he, hn⟩ := hn
  rcases List.mem_append.1 he with he | he
  · rcases mem_fields_cases he with heq | heq | heq
    · rw [heq] at hn
      cases hn
    · rw [heq] at hn
      cases hn
    · rw [heq, Value.mem_numbers_array_iff] at hn
      obtain ⟨v, hv, hn⟩ := hn
      obtain ⟨p, hp, rfl⟩ := List.mem_map.1 hv
      obtain ⟨d, e, hd, he, hread⟩ := Record.exists_of_mem_optional hpages hp
      have hn := he.numbers n ((Page.within_of_ofDocument? hread).numbers n hn)
      exact (Record.inside_of_ofEntries? hfields hd).numbers n hn
  · exact (Extras.inside_of_ofEntries? hextras e he).numbers n hn

/-- The unknown fields of one value are those of another, and so are those
of the pages. -/
structure SameUnknown (v w : Value) : Prop where
  own : v.others fieldNames = w.others fieldNames
  ofPages : (v.itemsAt "pages").map (·.others Page.fieldNames) =
    (w.itemsAt "pages").map (·.others Page.fieldNames)

theorem others_value (s : Subpackage) : s.value.others fieldNames = s.extras.entries := by
  rw [value_eq]
  exact Record.others_append s.mem_fieldNames_of_fields

theorem itemsAt_value (s : Subpackage) : s.value.itemsAt "pages" = s.pages.map Page.value := by
  rw [value_eq, Value.itemsAt]
  cases hflag : s.independent <;> simp [fields, hflag, Value.entries?, Keyed.get?]

/-- The pages that are read have values with the same unknown fields. -/
theorem exists_values_of_pages {d : Document} {pages : List Page}
    (h : Document.list? Page.ofDocument? d = some pages) :
    ∃ vs, d.value? = some (.array vs) ∧
      vs.map (·.others Page.fieldNames) = pages.map (·.value.others Page.fieldNames) := by
  obtain ⟨items, rfl, hall⟩ := Document.forall₂_of_list? h
  obtain ⟨vs, hvs, hsame⟩ :=
    Document.values?_of_forall₂ (hall.imp fun _ _ hread => Page.others_of_ofDocument? hread)
  exact ⟨vs, by rw [Document.value?, hvs, Option.map_some], hsame⟩

/-- **The unknown fields of a subpackage and of its pages survive**, with
their values and in order. -/
theorem sameUnknown_of_ofDocument? (h : ofDocument? d = some s) :
    ∃ v, d.value? = some v ∧ SameUnknown v s.value := by
  obtain ⟨entries, fields, rfl, hfields, hroot, hflag, hpages, hextras⟩ := of_ofDocument? h
  -- each field has a value, as it was read
  have hvalues : ∀ k ∈ fieldNames, ∀ d, fields.get? k = some d → ∃ v, d.value? = some v := by
    intro k hk d hd
    simp only [fieldNames, List.mem_cons, List.not_mem_nil, or_false] at hk
    rcases hk with rfl | rfl | rfl
    · rw [Record.optional, hd] at hroot
      obtain rfl := Document.string?_eq_some_iff.1 hroot
      exact ⟨_, rfl⟩
    · rw [Record.optional, hd] at hflag
      obtain rfl := Document.bool?_eq_some_iff.1 hflag
      exact ⟨_, rfl⟩
    · rw [Record.optional, hd] at hpages
      obtain ⟨vs, hvs, -⟩ := exists_values_of_pages hpages
      exact ⟨_, hvs⟩
  obtain ⟨all, hall, hothers, hget⟩ := Record.value?_of_fields hfields hextras hvalues
  refine ⟨.object all, hall, ?_, ?_⟩
  · rw [others_value]
    exact hothers
  · have hget : Keyed.get? all "pages" = (fields.get? "pages").bind Document.value? :=
      hget "pages" (by decide)
    rw [itemsAt_value, List.map_map, Value.itemsAt, Value.entries?, Option.bind_some, hget]
    rcases Record.optional_eq_some_iff.1 hpages with ⟨hnone, hnil⟩ | ⟨d, hd, hlist⟩
    · rw [hnone, hnil]
      rfl
    · obtain ⟨vs, hvs, hsame⟩ := exists_values_of_pages hlist
      rw [hd, Option.bind_some, hvs]
      exact hsame

/-- A subpackage that was read of a text fits one, if its binary64 numbers
are read back. -/
theorem fits_of_read? {text : String} (h : exchange.read? text = some s)
    (hfloats : s.value.FloatsReadBack) : s.value.Fits Document.maxDepth := by
  obtain ⟨d, hd, hs⟩ := Option.bind_eq_some_iff.1 h
  have hdepth : d.depth ≤ Document.maxDepth := Document.depth_le_of_read? hd
  exact ⟨Nat.le_trans (depth_of_ofDocument? hs) (Nat.max_le.2 ⟨by decide, hdepth⟩),
    hfloats.numbers hd (mem_numbers_of_ofDocument? hs)⟩

/-- The entry that is made of a subpackage without pages fits where the
subpackage does. -/
theorem fits_entryWithoutPages {n : Nat} (h : s.value.Fits (n + 2)) :
    (RootManifest.entryWithoutPages s).Fits (n + 2) := by
  rw [value_eq, Value.fits_object_iff, List.forall_mem_append] at h
  rw [entryWithoutPages_eq, Value.fits_object_iff, List.forall_mem_append]
  refine ⟨?_, h.2⟩
  cases hflag : s.independent <;> simp [entryFields, hflag]

/-- What becomes of a subpackage that was read of a text. -/
structure Survives (text : String) (s : Subpackage) : Prop where
  restored : exchange.Restores s
  /-- The unknown fields of what is written are those of the text. -/
  unknown : ∃ v, Value.read? text = some v ∧ ∀ layout ∈ Exchange.layouts,
    ∃ w, Value.read? (layout s.value) = some w ∧ SameUnknown v w
  /-- The entry of a root manifest stands for the subpackage. -/
  entry : s.pages = [] → ∀ layout ∈ Exchange.layouts,
    exchange.read? (layout (RootManifest.entryWithoutPages s)) = some s

/-- **A subpackage that is read survives.** -/
theorem survives_of_read? {text : String} (h : exchange.read? text = some s)
    (hfloats : s.value.FloatsReadBack) : s.Survives text := by
  have hfits := fits_of_read? h hfloats
  obtain ⟨d, hd, hs⟩ := Option.bind_eq_some_iff.1 h
  have hwf := wellFormed_of_ofDocument? hs
  have hback := ofDocument?_value hwf
  refine ⟨Exchange.restores_of_fits hback hfits, ?_, fun hpages layout hlayout => ?_⟩
  · obtain ⟨v, hv, hbefore⟩ := sameUnknown_of_ofDocument? hs
    obtain ⟨w, hw, hafter⟩ := sameUnknown_of_ofDocument? hback
    refine ⟨v, by rw [Value.read?, hd]; exact hv, fun layout hlayout => ⟨w, ?_, ?_⟩⟩
    · exact ((⟨id, Document.value?⟩ : Exchange Value).read?_written hfits layout hlayout).trans hw
    · exact ⟨hbefore.own.trans hafter.own.symm, hbefore.ofPages.trans hafter.ofPages.symm⟩
  · have hentry : (RootManifest.entryWithoutPages s).Fits Document.maxDepth :=
      fits_entryWithoutPages (n := 125) hfits
    rw [exchange.read?_written hentry layout hlayout]
    exact ofDocument?_entryWithoutPages hwf hpages

end Subpackage

/-! ## Options -/

namespace Options

/-- How options are exchanged. -/
def exchange : Exchange Options := ⟨value, ofDocument? .strict⟩

variable {d : Document} {o : Options}

/-- The subpackages of options that are read were read of documents inside
a document inside. -/
theorem exists_of_mem_appendSubPackages {dialect : Dialect} {s : Subpackage}
    (h : ofDocument? dialect d = some o) (hs : s ∈ o.appendSubPackages) :
    ∃ list e, list.Inside d ∧ e.Inside list ∧ Subpackage.ofDocument? e = some s := by
  obtain ⟨fields, hfields, h⟩ := Option.bind_eq_some_iff.1 h
  obtain ⟨subpackages, hsubpackages, h⟩ := Option.bind_eq_some_iff.1 h
  obtain ⟨dropped, -, h⟩ := Option.bind_eq_some_iff.1 h
  obtain ⟨lazy, -, h⟩ := Option.bind_eq_some_iff.1 h
  obtain ⟨strict, -, h⟩ := Option.bind_eq_some_iff.1 h
  obtain rfl := Option.some.inj h
  obtain ⟨list, e, hlist, he, hread⟩ := Record.exists_of_mem_optional hsubpackages hs
  exact ⟨list, e, Record.inside_of_field hfields hlist, he, hread⟩

theorem ofDocument?_value (h : ∀ s ∈ o.appendSubPackages, s.WellFormed) :
    ofDocument? .strict (.ofValue o.value) = some o := by
  have hsubpackages := Document.list?_ofValue fun s hs => Subpackage.ofDocument?_value (h s hs)
  rw [ofDocument?, value, Record.ofDocument?_object]
  · simp [Record.optional_ofObject, Keyed.get?, hsubpackages]
  · rfl
  · decide

/-- The numbers of a subpackage are among those of the options that append
it. -/
theorem mem_numbers_value {s : Subpackage} {n : Number} (hs : s ∈ o.appendSubPackages)
    (hn : n ∈ s.value.numbers) : n ∈ o.value.numbers :=
  Value.mem_numbers_object_iff.2 ⟨_, List.mem_cons_self,
    Value.mem_numbers_array_iff.2 ⟨_, List.mem_map_of_mem hs, hn⟩⟩

/-- Options fit where the subpackages do that they append. -/
theorem fits_value {n : Nat} (h : ∀ s ∈ o.appendSubPackages, s.value.Fits n) :
    o.value.Fits (n + 2) := by
  simpa [value] using h

/-- **Options that are read are restored.** -/
theorem restores_of_read? {text : String} (h : exchange.read? text = some o)
    (hfloats : o.value.FloatsReadBack) : exchange.Restores o := by
  obtain ⟨d, hd, ho⟩ := Option.bind_eq_some_iff.1 h
  have hdepth : d.depth ≤ 127 := Document.depth_le_of_read? hd
  refine Exchange.restores_of_fits (ofDocument?_value fun s hs => ?_) ?_
  · obtain ⟨list, e, -, -, hread⟩ := exists_of_mem_appendSubPackages ho hs
    exact Subpackage.wellFormed_of_ofDocument? hread
  · refine fits_value (n := 125) fun s hs => ?_
    obtain ⟨list, e, hlist, he, hread⟩ := exists_of_mem_appendSubPackages ho hs
    have hvalue : s.value.depth ≤ max 2 e.depth := Subpackage.depth_of_ofDocument? hread
    have hlist' := hlist.depth
    have he' := he.depth
    have hfloats : s.value.FloatsReadBack := fun x hx => hfloats x (mem_numbers_value hs hx)
    refine ⟨by omega, hfloats.numbers hd fun n hn => ?_⟩
    exact hlist.numbers n (he.numbers n (Subpackage.mem_numbers_of_ofDocument? hread n hn))

end Options

/-! ## All exchanged types -/

/-- **Reading undoes writing.** Modules, bundles and diagnostics are
restored, and so are fragments, options and subpackages that were read of a
text, provided that the binary64 numbers among their unknown fields are
read back. The unknown fields of a subpackage and of its pages survive
wherever it stands, and the entry that is made of one without pages is read
as the same subpackage. -/
theorem exchanged_types_restored :
    (∀ m : Module, Module.exchange.Restores m) ∧
    (∀ b : Bundle, Bundle.exchange.Restores b) ∧
    (∀ d : Diagnostic, Diagnostic.exchange.Restores d) ∧
    (∀ text f, Fragment.exchange.read? text = some f → Fragment.exchange.Restores f) ∧
    (∀ text o, Options.exchange.read? text = some o → o.value.FloatsReadBack →
      Options.exchange.Restores o) ∧
    (∀ text s, Subpackage.exchange.read? text = some s → s.value.FloatsReadBack →
      Subpackage.Survives text s) ∧
    ∀ d s, Subpackage.ofDocument? d = some s →
      (∃ v, d.value? = some v ∧ Subpackage.SameUnknown v s.value) ∧
      (s.pages = [] →
        Subpackage.ofDocument? (.ofValue (RootManifest.entryWithoutPages s)) = some s) := by
  refine ⟨Module.restores, Bundle.restores, Diagnostic.restores, ?_, ?_, ?_, ?_⟩
  · exact fun _ _ h => Fragment.restores_of_read? h
  · exact fun _ _ h hfloats => Options.restores_of_read? h hfloats
  · exact fun _ _ h hfloats => Subpackage.survives_of_read? h hfloats
  · exact fun _ _ h => ⟨Subpackage.sameUnknown_of_ofDocument? h,
      Subpackage.ofDocument?_entryWithoutPages (Subpackage.wellFormed_of_ofDocument? h)⟩

/-- A subpackage with a page in either form and further fields, one of
which is given twice. -/
def chartText : String :=
  "\x7b\"name\": \"a\", \"root\": \"charts\", \"pages\": [\"bar\", \x7b\"style\": "
    ++ "\x7b\"width\": 0.5\x7d, \"path\": \"pie\"\x7d], \"name\": [7]\x7d"

/-- The binary64 number one half. -/
def half : Binary64 := ⟨0x3FE0000000000000⟩

/-- What the text is read as. -/
def chartSubpackage : Subpackage where
  root := "charts"
  independent := false
  pages := [.path "bar",
    .route "pie" ⟨[("style", .object [("width", .number (.float half))])], by decide, by decide⟩]
  extras := ⟨[("name", .array [.number (.int 7)])], by decide, by decide⟩

theorem chartSubpackage_survives :
    Subpackage.exchange.read? chartText = some chartSubpackage ∧
      chartSubpackage.value.FloatsReadBack ∧ Subpackage.Survives chartText chartSubpackage := by
  have hread : Subpackage.exchange.read? chartText = some chartSubpackage := by decide +kernel
  have hnumbers : chartSubpackage.value.numbers = [.float half, .int 7] := by decide +kernel
  have hfloats : chartSubpackage.value.FloatsReadBack := by
    intro x hx
    rw [hnumbers] at hx
    obtain rfl : x = half := by simpa using hx
    exact ⟨⟨false, [0], [5], none⟩, by decide +kernel, by decide +kernel⟩
  exact ⟨hread, hfloats, exchanged_types_restored.2.2.2.2.2.1 _ _ hread hfloats⟩

end SplitBuild
