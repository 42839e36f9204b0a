import SplitBuild.Json.Record
import SplitBuild.Proofs.Json.RoundTrip
import Mathlib.Data.List.Forall2
/-!
# Records that are written and read

The object of a record is read field by field. Of the entries of an object
those that name a field are its fields (`Record.ofEntries?_ofEntries`), the
others are kept with their values (`Record.extras?_ofEntries`), and each
kind of field is read back from what is written for it, a list item by item
(`Document.list?_ofValue`). `Extras` that are inserted into an object of
fields go behind them (`Extras.putAll_eq_append`), and such an object is
read as both (`Record.ofEntries?_append`, `Extras.ofEntries?_append`).

Conversely, what was read of a document lies inside it, be it a field
(`Record.inside_of_field`), an item or an entry that is kept. Where every
field has a value so has the object, and the entries of its value that name
no field are those that were kept (`Record.value?_of_fields`).
-/

namespace SplitBuild

namespace Json

variable {α β : Type}

/-! ## Fields that were written -/

namespace Record

variable {names : List String} {entries : Object} {k : String}

/-- The fields that the entries of an object are. -/
def ofObject (entries : Object) : Record := entries.map fun e => (e.1, .ofValue e.2)

theorem keys_ofObject (entries : Object) :
    Keyed.keys (ofObject entries) = Keyed.keys entries := Keyed.keys_map Document.ofValue entries

theorem get?_ofObject (entries : Object) (k : String) :
    (ofObject entries).get? k = (entries.get? k).map .ofValue :=
  Keyed.get?_map Document.ofValue entries k

/-- The entries that name one of the fields. -/
def named (names : List String) (entries : Object) : Object :=
  entries.filter fun e => e.1 ∈ names

/-- The entries that name none of the fields. -/
def others (names : List String) (entries : Object) : Object :=
  entries.filter fun e => e.1 ∉ names

theorem named_cons (names : List String) (e : String × Value) (es : Object) :
    named names (e :: es) = if e.1 ∈ names then e :: named names es else named names es := by
  by_cases h : e.1 ∈ names
  · rw [if_pos h, named, List.filter_cons_of_pos (by simpa using h), named]
  · rw [if_neg h, named, List.filter_cons_of_neg (by simpa using h), named]

theorem others_cons (names : List String) (e : String × Value) (es : Object) :
    others names (e :: es) = if e.1 ∈ names then others names es else e :: others names es := by
  by_cases h : e.1 ∈ names
  · rw [if_pos h, others, List.filter_cons_of_neg (by simpa using h), others]
  · rw [if_neg h, others, List.filter_cons_of_pos (by simpa using h), others]

theorem get?_named (h : k ∈ names) : (named names entries).get? k = entries.get? k := by
  rw [Keyed.get?_eq_find?, Keyed.get?_eq_find?, named, List.find?_filter]
  congr 2
  funext e
  by_cases he : e.1 = k <;> simp [he, h]

/-- **The fields of an object are the entries it has under their names.** -/
theorem ofEntries?_ofEntries (h : (Keyed.keys entries).Nodup) :
    ofEntries? names (Document.ofEntries entries) = some (ofObject (named names entries)) := by
  induction entries with
  | nil => rfl
  | cons e es ih =>
    obtain ⟨hnew, hnodup⟩ := List.nodup_cons.1 h
    have habsent : ¬ (ofObject (named names es)).contains e.1 := by
      rw [Keyed.contains, Keyed.isSome_get?_iff, keys_ofObject]
      exact fun hmem => hnew (List.Sublist.subset (List.filter_sublist.map Prod.fst) hmem)
    simp only [Document.ofEntries, ofEntries?, ih hnodup, Option.bind_eq_bind, Option.bind_some,
      named_cons]
    by_cases hname : e.1 ∈ names
    · rw [if_pos hname, if_neg habsent, if_pos hname]
      rfl
    · rw [if_neg hname, if_neg hname]

/-- **The other entries of an object are kept with their values.** -/
theorem extras?_ofEntries (h : Value.DistinctEntries (others names entries)) :
    extras? names (Document.ofEntries entries) = some (others names entries) := by
  induction entries with
  | nil => rfl
  | cons e es ih =>
    rw [others_cons] at h ⊢
    by_cases hname : e.1 ∈ names
    · rw [if_pos hname] at h ⊢
      simp only [Document.ofEntries, extras?, ih h, Option.bind_eq_bind, Option.bind_some,
        if_pos hname]
    · rw [if_neg hname] at h ⊢
      simp only [Document.ofEntries, extras?, ih h.2, Option.bind_eq_bind, Option.bind_some,
        if_neg hname, Document.value?_ofValue e.2 h.1]
      rfl

/-- A record that is written with all its fields is read with them. -/
theorem ofDocument?_object (hnames : Keyed.keys entries = names) (hnodup : names.Nodup) :
    ofDocument? .strict names (.ofValue (.object entries)) = some (ofObject entries) := by
  have hall : named names entries = entries := by
    refine List.filter_eq_self.2 fun e he => ?_
    rw [← hnames, decide_eq_true_eq]
    exact List.mem_map_of_mem he
  rw [Document.ofValue, ofDocument?, if_neg (by simp), ofEntries?_ofEntries (by rwa [hnames]), hall]

theorem required_ofObject (entries : Object) (k : String) (read? : Document → Option α) :
    required (ofObject entries) k read? = (entries.get? k).bind fun v => read? (.ofValue v) := by
  rw [required, get?_ofObject, Option.bind_map]
  rfl

theorem optional_ofObject (entries : Object) (k : String) (default : α)
    (read? : Document → Option α) :
    optional (ofObject entries) k default read? =
      match entries.get? k with
      | some v => read? (.ofValue v)
      | none => some default := by
  rw [optional, get?_ofObject]
  cases entries.get? k <;> rfl

variable {front : Object} {extras : Extras names}

theorem named_append (hfront : ∀ k ∈ Keyed.keys front, k ∈ names) :
    named names (front ++ extras.entries) = front := by
  rw [named, List.filter_append, List.filter_eq_self.2, List.filter_eq_nil_iff.2,
    List.append_nil]
  · exact fun e he => by simpa using extras.other e.1 (List.mem_map_of_mem he)
  · exact fun e he => by simpa using hfront e.1 (List.mem_map_of_mem he)

theorem others_append (hfront : ∀ k ∈ Keyed.keys front, k ∈ names) :
    others names (front ++ extras.entries) = extras.entries := by
  rw [others, List.filter_append, List.filter_eq_nil_iff.2, List.filter_eq_self.2,
    List.nil_append]
  · exact fun e he => by simpa using extras.other e.1 (List.mem_map_of_mem he)
  · exact fun e he => by simpa using hfront e.1 (List.mem_map_of_mem he)

theorem nodup_keys_append (hfront : ∀ k ∈ Keyed.keys front, k ∈ names)
    (hnodup : (Keyed.keys front).Nodup) : (Keyed.keys (front ++ extras.entries)).Nodup := by
  rw [Keyed.keys, List.map_append]
  refine List.nodup_append.2 ⟨hnodup, extras.nodup, ?_⟩
  rintro k hk j hj rfl
  exact extras.other k hj (hfront k hk)

/-- The names of an object with kept entries are distinct throughout. -/
theorem distinct_append (hfront : ∀ k ∈ Keyed.keys front, k ∈ names)
    (hnodup : (Keyed.keys front).Nodup) (hvalues : ∀ e ∈ front, e.2.Distinct)
    (h : Value.DistinctEntries extras.entries) :
    (Value.object (front ++ extras.entries)).Distinct := by
  refine ⟨nodup_keys_append hfront hnodup, Value.distinctEntries_iff.2 fun k v hmem => ?_⟩
  rcases List.mem_append.1 hmem with hmem | hmem
  · exact hvalues _ hmem
  · exact Value.distinctEntries_iff.1 h k v hmem

/-- **Fields with entries beside them are read as the fields.** -/
theorem ofEntries?_append (hfront : ∀ k ∈ Keyed.keys front, k ∈ names)
    (hnodup : (Keyed.keys front).Nodup) :
    ofEntries? names (Document.ofEntries (front ++ extras.entries)) = some (ofObject front) := by
  rw [ofEntries?_ofEntries (nodup_keys_append hfront hnodup), named_append hfront]

end Record

namespace Extras

variable {names : List String} {entries : List (Option String × Document)} {extras : Extras names}

theorem ofEntries?_eq_some_iff : ofEntries? names entries = some extras ↔
    ∃ es, Record.extras? names entries = some es ∧ extras.entries = Keyed.ofList es := by
  rw [ofEntries?, Option.pmap_eq_some_iff]
  constructor
  · rintro ⟨es, -, hes, rfl⟩
    exact ⟨es, hes, rfl⟩
  · rintro ⟨es, hes, hextras⟩
    refine ⟨es, Record.not_mem_of_extras? hes, hes, ?_⟩
    cases extras
    cases hextras
    rfl

/-- What is kept goes behind the fields where it is inserted entry by entry. -/
theorem putAll_eq_append {front : Object} (hfront : ∀ k ∈ Keyed.keys front, k ∈ names)
    (extras : Extras names) : Keyed.putAll front extras.entries = front ++ extras.entries :=
  Keyed.putAll_eq_append extras.nodup fun k hk hmem => extras.other k hk (hfront k hmem)

/-- **The entries beside the fields are kept.** -/
theorem ofEntries?_append {front : Object} (hfront : ∀ k ∈ Keyed.keys front, k ∈ names)
    (h : Value.DistinctEntries extras.entries) :
    ofEntries? names (Document.ofEntries (front ++ extras.entries)) = some extras := by
  have hothers : Record.others names (front ++ extras.entries) = extras.entries :=
    Record.others_append hfront
  refine ofEntries?_eq_some_iff.2 ⟨extras.entries, ?_, (Keyed.ofList_eq_self extras.nodup).symm⟩
  rw [Record.extras?_ofEntries (by rw [hothers]; exact h), hothers]

end Extras

namespace Document

@[simp] theorem string?_ofValue (s : String) : string? (.ofValue (.string s)) = some s := rfl

@[simp] theorem bool?_ofValue (b : Bool) : bool? (.ofValue (.bool b)) = some b := rfl

@[simp] theorem choice?_ofValue (named : Keyed α) (s : String) :
    choice? named (.ofValue (.string s)) = named.get? s := rfl

@[simp] theorem nullable?_ofOption (s : Option String) :
    nullable? string? (.ofValue (.ofOption s)) = some s := by
  cases s <;> rfl

theorem mapM_map {read? : β → Option α} {write : α → β} {xs : List α}
    (h : ∀ x ∈ xs, read? (write x) = some x) : (xs.map write).mapM read? = some xs := by
  induction xs with
  | nil => rfl
  | cons x xs ih =>
    obtain ⟨hx, hxs⟩ := List.forall_mem_cons.1 h
    rw [List.map_cons, List.mapM_cons, hx, ih hxs]
    rfl

/-- **A list is read back if its items are.** -/
theorem list?_ofValue {read? : Document → Option α} {write : α → Value} {xs : List α}
    (h : ∀ x ∈ xs, read? (.ofValue (write x)) = some x) :
    list? read? (.ofValue (.array (xs.map write))) = some xs := by
  rw [ofValue, ofValues_eq_map, List.map_map, list?]
  exact mapM_map h

@[simp] theorem list?_ofStrings (texts : List String) :
    list? string? (.ofValue (.ofStrings texts)) = some texts := list?_ofValue fun _ _ => rfl

/-- Texts under distinct names are read back. -/
theorem entries?_ofTexts {texts : Keyed String} (h : (Keyed.keys texts).Nodup) :
    entries? string? (.ofValue (.ofTexts texts)) = some texts := by
  have hread : (ofEntries (texts.map fun e => (e.1, .string e.2))).mapM
      (fun (e : Option String × Document) => do
        let k ← e.1
        let v ← string? e.2
        return (k, v)) = some texts := by
    rw [ofEntries_eq_map, List.map_map]
    exact mapM_map fun _ _ => rfl
  rw [Value.ofTexts, ofValue, entries?, hread, Option.map_some, Keyed.ofList_eq_self h]

end Document

/-! ## Fields that were read -/

namespace Document

theorem string?_eq_some_iff {d : Document} {s : String} : d.string? = some s ↔ d = .string s := by
  cases d <;> simp [string?]

theorem bool?_eq_some_iff {d : Document} {b : Bool} : d.bool? = some b ↔ d = .bool b := by
  cases d <;> simp [bool?]

theorem forall₂_of_mapM {read? : β → Option α} {ys : List β} {xs : List α}
    (h : ys.mapM read? = some xs) : List.Forall₂ (fun y x => read? y = some x) ys xs := by
  induction ys generalizing xs with
  | nil =>
    obtain rfl := Option.some.inj h
    exact .nil
  | cons y ys ih =>
    rw [List.mapM_cons] at h
    obtain ⟨x, hx, h⟩ := Option.bind_eq_some_iff.1 h
    obtain ⟨xs, hxs, h⟩ := Option.bind_eq_some_iff.1 h
    obtain rfl := Option.some.inj h
    exact .cons hx (ih hxs)

/-- The items of a list are what was read of the items of an array. -/
theorem forall₂_of_list? {read? : Document → Option α} {d : Document} {xs : List α}
    (h : list? read? d = some xs) :
    ∃ items, d = .array items ∧ List.Forall₂ (fun e x => read? e = some x) items xs := by
  cases d with
  | array items => exact ⟨items, rfl, forall₂_of_mapM h⟩
  | _ => cases h

theorem exists_of_forall₂ {R : β → α → Prop} {ys : List β} {xs : List α} {x : α}
    (h : List.Forall₂ R ys xs) (hx : x ∈ xs) : ∃ y ∈ ys, R y x := by
  induction h with
  | nil => cases hx
  | @cons y w ys xs hy _ ih =>
    rcases List.mem_cons.1 hx with rfl | hx
    · exact ⟨y, List.mem_cons_self, hy⟩
    · obtain ⟨z, hz, hR⟩ := ih hx
      exact ⟨z, List.mem_cons_of_mem _ hz, hR⟩

theorem exists_of_mem_list? {read? : Document → Option α} {d : Document} {xs : List α} {x : α}
    (h : list? read? d = some xs) (hx : x ∈ xs) :
    ∃ e, e.Inside d ∧ read? e = some x := by
  obtain ⟨items, rfl, hall⟩ := forall₂_of_list? h
  obtain ⟨e, he, hread⟩ := exists_of_forall₂ hall hx
  exact ⟨e, inside_of_mem_items he, hread⟩

/-- The names that are read of an object are distinct. -/
theorem nodup_keys_of_entries? {read? : Document → Option α} {d : Document} {es : Keyed α}
    (h : entries? read? d = some es) : (Keyed.keys es).Nodup := by
  cases d with
  | object entries =>
    obtain ⟨es, -, rfl⟩ := Option.map_eq_some_iff.1 h
    exact Keyed.nodup_keys_ofList es
  | _ => cases h

/-- Where each item has a value that agrees with what was read of it, so
has the array. -/
theorem values?_of_forall₂ {γ : Type} {f : Value → γ} {g : α → γ} {items : List Document}
    {xs : List α} (h : List.Forall₂ (fun e x => ∃ v, e.value? = some v ∧ f v = g x) items xs) :
    ∃ vs, values? items = some vs ∧ vs.map f = xs.map g := by
  induction h with
  | nil => exact ⟨[], rfl, rfl⟩
  | @cons e x items xs he _ ih =>
    obtain ⟨v, hv, hx⟩ := he
    obtain ⟨vs, hvs, hxs⟩ := ih
    refine ⟨v :: vs, ?_, ?_⟩
    · rw [values?, hv, hvs]
      rfl
    · rw [List.map_cons, List.map_cons, hx, hxs]

end Document

namespace Record

variable {names : List String} {entries : List (Option String × Document)} {fields : Record}
variable {es : List (String × Value)} {d : Document} {k : String}

/-- What an entry does to the fields behind it: it names one of its own,
or none. -/
theorem of_ofEntries?_cons {key : Option String}
    (h : ofEntries? names ((key, d) :: entries) = some fields) :
    ∃ k found, key = some k ∧ ofEntries? names entries = some found ∧
      ((k ∈ names ∧ k ∉ Keyed.keys found ∧ fields = (k, d) :: found) ∨
        (k ∉ names ∧ fields = found)) := by
  obtain ⟨k, rfl, h⟩ := Option.bind_eq_some_iff.1 h
  obtain ⟨found, hfound, h⟩ := Option.bind_eq_some_iff.1 h
  refine ⟨k, found, rfl, hfound, ?_⟩
  split at h
  · rename_i hname
    split at h
    · cases h
    · rename_i hnew
      rw [Keyed.contains, Keyed.isSome_get?_iff] at hnew
      exact .inl ⟨hname, hnew, (Option.some.inj h).symm⟩
  · rename_i hname
    exact .inr ⟨hname, (Option.some.inj h).symm⟩

theorem mem_of_ofEntries? (h : ofEntries? names entries = some fields) (hmem : (k, d) ∈ fields) :
    (some k, d) ∈ entries := by
  induction entries generalizing fields with
  | nil =>
    obtain rfl := Option.some.inj h
    cases hmem
  | cons e entries ih =>
    obtain ⟨j, found, hj, hfound, ⟨-, -, rfl⟩ | ⟨-, rfl⟩⟩ := of_ofEntries?_cons h
    · rcases List.mem_cons.1 hmem with heq | hmem
      · obtain ⟨rfl, rfl⟩ := Prod.mk.inj heq
        rw [← hj]
        exact List.mem_cons_self
      · exact List.mem_cons_of_mem _ (ih hfound hmem)
    · exact List.mem_cons_of_mem _ (ih hfound hmem)

theorem mem_names_of_ofEntries? (h : ofEntries? names entries = some fields)
    (hk : k ∈ Keyed.keys fields) : k ∈ names := by
  induction entries generalizing fields with
  | nil =>
    obtain rfl := Option.some.inj h
    cases hk
  | cons e entries ih =>
    obtain ⟨j, found, -, hfound, ⟨hname, -, rfl⟩ | ⟨-, rfl⟩⟩ := of_ofEntries?_cons h
    · rcases List.mem_cons.1 hk with rfl | hk
      · exact hname
      · exact ih hfound hk
    · exact ih hfound hk

/-- No field is given twice. -/
theorem nodup_keys_of_ofEntries? (h : ofEntries? names entries = some fields) :
    (Keyed.keys fields).Nodup := by
  induction entries generalizing fields with
  | nil =>
    obtain rfl := Option.some.inj h
    exact List.nodup_nil
  | cons e entries ih =>
    obtain ⟨j, found, -, hfound, ⟨-, hnew, rfl⟩ | ⟨-, rfl⟩⟩ := of_ofEntries?_cons h
    · exact List.nodup_cons.2 ⟨hnew, ih hfound⟩
    · exact ih hfound

/-- A field with a default is read, or missing. -/
theorem optional_eq_some_iff {default a : α} {read? : Document → Option α} :
    optional fields k default read? = some a ↔
      (fields.get? k = none ∧ a = default) ∨ ∃ d, fields.get? k = some d ∧ read? d = some a := by
  rw [optional]
  cases fields.get? k with
  | none => simp [eq_comm]
  | some d => simp

theorem inside_of_ofEntries? (h : ofEntries? names entries = some fields)
    (hd : fields.get? k = some d) : d.Inside (.object entries) :=
  Document.inside_of_mem_entries (mem_of_ofEntries? h (Keyed.mem_of_get? hd))

/-- A field lies inside the record. -/
theorem inside_of_field {dialect : Dialect} {doc : Document}
    (h : ofDocument? dialect names doc = some fields) (hd : fields.get? k = some d) :
    d.Inside doc := by
  cases doc with
  | object entries =>
    rw [ofDocument?] at h
    split at h
    · cases h
    · exact inside_of_ofEntries? h hd
  | array items =>
    rw [ofDocument?] at h
    split at h
    · cases h
    · obtain rfl := Option.some.inj h
      exact Document.inside_of_mem_items (List.of_mem_zip (Keyed.mem_of_get? hd)).2
  | _ => cases h

/-- The items of a field with a list were read of documents inside it. -/
theorem exists_of_mem_optional {read? : Document → Option α} {xs : List α} {x : α}
    (h : optional fields k [] (Document.list? read?) = some xs) (hx : x ∈ xs) :
    ∃ d e, fields.get? k = some d ∧ e.Inside d ∧ read? e = some x := by
  rcases optional_eq_some_iff.1 h with ⟨-, rfl⟩ | ⟨d, hd, hlist⟩
  · cases hx
  · obtain ⟨e, he, hread⟩ := Document.exists_of_mem_list? hlist hx
    exact ⟨d, e, hd, he, hread⟩

/-- What is kept stood in the object. -/
theorem mem_of_extras? {v : Value} (h : extras? names entries = some es) (hmem : (k, v) ∈ es) :
    ∃ d, (some k, d) ∈ entries ∧ d.value? = some v := by
  induction entries generalizing es with
  | nil =>
    obtain rfl := Option.some.inj h
    cases hmem
  | cons e entries ih =>
    obtain ⟨j, rest, hj, hrest, hes⟩ := of_extras?_cons h
    have hlater (hmem : (k, v) ∈ rest) :
        ∃ d, (some k, d) ∈ e :: entries ∧ d.value? = some v := by
      obtain ⟨d, hd, hv⟩ := ih hrest hmem
      exact ⟨d, List.mem_cons_of_mem _ hd, hv⟩
    rcases hes with ⟨-, rfl⟩ | ⟨-, w, hw, rfl⟩
    · exact hlater hmem
    · rcases List.mem_cons.1 hmem with heq | hmem
      · obtain ⟨rfl, rfl⟩ := Prod.mk.inj heq
        refine ⟨_, ?_, hw⟩
        rw [← hj]
        exact List.mem_cons_self
      · exact hlater hmem

/-- Where every field has a value so has every entry. -/
theorem entryValues?_of_fields (hfields : ofEntries? names entries = some fields)
    (hextras : extras? names entries = some es)
    (hvalues : ∀ e ∈ fields, ∃ v, e.2.value? = some v) :
    ∃ all, Document.entryValues? entries = some all ∧ others names all = es ∧
      (named names all).map (fun e => (e.1, some e.2)) =
        fields.map fun e => (e.1, e.2.value?) := by
  induction entries generalizing fields es with
  | nil =>
    obtain rfl := Option.some.inj hfields
    obtain rfl := Option.some.inj hextras
    exact ⟨[], rfl, rfl, rfl⟩
  | cons e entries ih =>
    obtain ⟨key, d⟩ := e
    obtain ⟨k, found, rfl, hfound, hfields⟩ := of_ofEntries?_cons hfields
    obtain ⟨j, rest, hj, hrest, hextras⟩ := of_extras?_cons hextras
    obtain rfl := Option.some.inj hj
    -- the entry has a value, since it is one of the fields or is kept
    have hcons {v : Value} {all : Object} (hv : d.value? = some v)
        (hall : Document.entryValues? entries = some all) :
        Document.entryValues? ((some k, d) :: entries) = some ((k, v) :: all) := by
      simp only [Document.entryValues?, hv, hall, Option.bind_eq_bind, Option.bind_some]
      rfl
    by_cases hname : k ∈ names
    · obtain ⟨-, rfl⟩ := hextras.resolve_right fun hother => hother.1 hname
      obtain ⟨-, -, rfl⟩ := hfields.resolve_right fun hother => hother.1 hname
      obtain ⟨⟨v, hv⟩, hvalues⟩ := List.forall_mem_cons.1 hvalues
      obtain ⟨all, hall, hothers, hnamed⟩ := ih hfound hrest hvalues
      refine ⟨(k, v) :: all, hcons hv hall, ?_, ?_⟩
      · rw [others_cons, if_pos hname, hothers]
      · rw [named_cons, if_pos hname, List.map_cons, List.map_cons, hnamed, hv]
    · obtain ⟨-, rfl⟩ := hfields.resolve_left fun hfield => hname hfield.1
      obtain ⟨-, v, hv, rfl⟩ := hextras.resolve_left fun hfield => hname hfield.1
      obtain ⟨all, hall, hothers, hnamed⟩ := ih hfound hrest hvalues
      refine ⟨(k, v) :: all, hcons hv hall, ?_, ?_⟩
      · rw [others_cons, if_neg hname, hothers]
      · rw [named_cons, if_neg hname]
        exact hnamed

/-- **Where every field has a value so has the object.** Under the name of
a field it has the value of that field, and the entries that name no field
are those that are kept. -/
theorem value?_of_fields {extras : Extras names}
    (hfields : ofEntries? names entries = some fields)
    (hextras : Extras.ofEntries? names entries = some extras)
    (hvalues : ∀ k ∈ names, ∀ d, fields.get? k = some d → ∃ v, d.value? = some v) :
    ∃ all : Object, (Document.object entries).value? = some (.object all) ∧
      others names all = extras.entries ∧
      ∀ k ∈ names, all.get? k = (fields.get? k).bind Document.value? := by
  obtain ⟨es, hes, hextras⟩ := Extras.ofEntries?_eq_some_iff.1 hextras
  have hnodup := nodup_keys_of_ofEntries? hfields
  obtain ⟨all, hall, hothers, hnamed⟩ := entryValues?_of_fields hfields hes fun e he =>
    hvalues e.1 (mem_names_of_ofEntries? hfields (List.mem_map_of_mem he)) e.2
      (Keyed.get?_of_mem hnodup he)
  have hkeys : Keyed.keys (named names all) = Keyed.keys fields := by
    rw [← Keyed.keys_map some, hnamed, Keyed.keys_map]
  -- no field is given twice, so putting the entries in turn leaves the fields as they are
  have hfixed : named names (Keyed.ofList all) = named names all := by
    have hnamed : (Keyed.keys (named names all)).Nodup := by rwa [hkeys]
    exact (Keyed.filter_ofList (· ∈ names) all).trans (Keyed.ofList_eq_self hnamed)
  refine ⟨Keyed.ofList all, ?_, ?_, fun k hk => ?_⟩
  · rw [Document.value?, hall, Option.map_some]
  · rw [hextras, ← hothers]
    exact Keyed.filter_ofList (· ∉ names) all
  · have hget := congrArg (Keyed.get? · k) hnamed
    simp only [Keyed.get?_map] at hget
    rw [← get?_named hk, hfixed]
    cases hfield : Keyed.get? fields k with
    | none =>
      rw [hfield, Option.map_none, Option.map_eq_none_iff] at hget
      exact hget
    | some d =>
      rw [hfield, Option.map_some, Option.map_eq_some_iff] at hget
      obtain ⟨v, hv, hd⟩ := hget
      rw [hv, Option.bind_some, hd]

end Record

namespace Extras

variable {names : List String} {entries : List (Option String × Document)} {extras : Extras names}

theorem mem_of_ofEntries? {k : String} {v : Value} (h : ofEntries? names entries = some extras)
    (hmem : (k, v) ∈ extras.entries) : ∃ d, (some k, d) ∈ entries ∧ d.value? = some v := by
  obtain ⟨es, hes, hextras⟩ := ofEntries?_eq_some_iff.1 h
  rw [hextras] at hmem
  exact Record.mem_of_extras? hes (Keyed.mem_of_mem_ofList hmem)

/-- The names in what is kept are distinct throughout. -/
theorem distinct_of_ofEntries? (h : ofEntries? names entries = some extras) :
    Value.DistinctEntries extras.entries := by
  refine Value.distinctEntries_iff.2 fun k v hmem => ?_
  obtain ⟨d, -, hv⟩ := mem_of_ofEntries? h hmem
  exact d.distinct_of_value? hv

/-- What is kept lies inside the object. -/
theorem inside_of_ofEntries? (h : ofEntries? names entries = some extras) :
    ∀ e ∈ extras.entries, (Document.ofValue e.2).Inside (.object entries) := by
  intro e he
  obtain ⟨d, hd, hv⟩ := mem_of_ofEntries? h he
  exact .of_within (d.within_of_value? hv) (Document.inside_of_mem_entries hd)

end Extras

end Json

end SplitBuild
