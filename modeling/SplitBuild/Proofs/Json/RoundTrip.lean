import SplitBuild.Proofs.Json.Numbers
import SplitBuild.Proofs.Json.Reading
/-!
# Reading what was written

A document goes as deep as its containers stand inside each other
(`Document.depth`). The reader makes unreadable what is nested too deep, so
a document that was read goes no deeper than it may
(`Document.depth_le_of_read?`). The value of a document goes no deeper
either and has no other numbers (`Document.within_of_value?`).

A value that goes no deeper than it may is read as its document from
either layout (`Layout.read?_text_of_fits`), and as the value itself where
its names are distinct (`Layout.value_read?_text`). So **a value that was
read is read back once it is written** (`Value.readsBack_of_read?`), if its
binary64 numbers are: those are rounded more than once.
-/

namespace SplitBuild

namespace Json

/-! ## Depth -/

namespace Document

mutual

/-- How many containers stand inside each other in a document. -/
def depth : Document → Nat
  | .array items => depthOfItems items + 1
  | .object entries => depthOfEntries entries + 1
  | _ => 0

def depthOfItems : List Document → Nat
  | [] => 0
  | d :: ds => max (depth d) (depthOfItems ds)

def depthOfEntries : List (Option String × Document) → Nat
  | [] => 0
  | (_, d) :: es => max (depth d) (depthOfEntries es)

end

theorem depthOfItems_le_iff {items : List Document} {n : Nat} :
    depthOfItems items ≤ n ↔ ∀ d ∈ items, d.depth ≤ n := by
  induction items with
  | nil => simp [depthOfItems]
  | cons d ds ih => rw [depthOfItems, Nat.max_le, ih, List.forall_mem_cons]

theorem depthOfEntries_le_iff {entries : List (Option String × Document)} {n : Nat} :
    depthOfEntries entries ≤ n ↔ ∀ e ∈ entries, e.2.depth ≤ n := by
  induction entries with
  | nil => simp [depthOfEntries]
  | cons e es ih => rw [depthOfEntries, Nat.max_le, ih, List.forall_mem_cons]

mutual

/-- What is left of a document goes no deeper than it may. -/
theorem depth_clip_le (n : Nat) : (d : Document) → (d.clip n).depth ≤ n
  | .null | .bool _ | .number _ | .string _ | .unreadable => by cases n <;> exact Nat.zero_le _
  | .array items =>
    match n with
    | 0 => Nat.le_refl 0
    | n + 1 => Nat.succ_le_succ (depth_clipItems_le n items)
  | .object entries =>
    match n with
    | 0 => Nat.le_refl 0
    | n + 1 => Nat.succ_le_succ (depth_clipEntries_le n entries)

theorem depth_clipItems_le (n : Nat) : (ds : List Document) → depthOfItems (clipItems n ds) ≤ n
  | [] => Nat.zero_le n
  | d :: ds => Nat.max_le.2 ⟨depth_clip_le n d, depth_clipItems_le n ds⟩

theorem depth_clipEntries_le (n : Nat) : (es : List (Option String × Document)) →
    depthOfEntries (clipEntries n es) ≤ n
  | [] => Nat.zero_le n
  | (_, d) :: es => Nat.max_le.2 ⟨depth_clip_le n d, depth_clipEntries_le n es⟩

end

mutual

/-- A document that goes no deeper than it may is left as it is. -/
theorem clip_eq_self : (d : Document) → {n : Nat} → d.depth ≤ n → d.clip n = d
  | .null, n, _ | .bool _, n, _ | .number _, n, _ | .string _, n, _ | .unreadable, n, _ => by
    cases n <;> rfl
  | .array items, n + 1, h => by
    rw [clip, clipItems_eq_self items (Nat.le_of_succ_le_succ h)]
  | .object entries, n + 1, h => by
    rw [clip, clipEntries_eq_self entries (Nat.le_of_succ_le_succ h)]

theorem clipItems_eq_self : (ds : List Document) → {n : Nat} → depthOfItems ds ≤ n →
    clipItems n ds = ds
  | [], _, _ => rfl
  | d :: ds, _, h => by
    obtain ⟨hd, hds⟩ := Nat.max_le.1 h
    rw [clipItems, clip_eq_self d hd, clipItems_eq_self ds hds]

theorem clipEntries_eq_self : (es : List (Option String × Document)) → {n : Nat} →
    depthOfEntries es ≤ n → clipEntries n es = es
  | [], _, _ => rfl
  | (_, d) :: es, _, h => by
    obtain ⟨hd, hes⟩ := Nat.max_le.1 h
    rw [clipEntries, clip_eq_self d hd, clipEntries_eq_self es hes]

end

/-- A document that is read goes no deeper than it may. -/
theorem depth_le_of_read? {text : String} {d : Document} (h : read? text = some d) :
    d.depth ≤ maxDepth := by
  simp only [read?] at h
  split at h
  · split at h
    · obtain rfl := Option.some.inj h
      exact depth_clip_le maxDepth _
    · cases h
  · cases h

end Document

/-! ## The document of a value -/

namespace Value

/-- How many containers stand inside each other in a value. -/
def depth (v : Value) : Nat := (Document.ofValue v).depth

end Value

namespace Document

theorem ofValues_eq_map (vs : List Value) : ofValues vs = vs.map ofValue := by
  induction vs with
  | nil => rfl
  | cons v vs ih => rw [ofValues, ih, List.map_cons]

theorem ofEntries_eq_map (es : List (String × Value)) :
    ofEntries es = es.map fun e => (some e.1, ofValue e.2) := by
  induction es with
  | nil => rfl
  | cons e es ih => rw [ofEntries, ih, List.map_cons]

mutual

/-- A value whose names are distinct is the value of its document. -/
theorem value?_ofValue : (v : Value) → v.Distinct → (ofValue v).value? = some v
  | .null, _ | .bool _, _ | .number _, _ | .string _, _ => rfl
  | .array items, h => by
    rw [ofValue, value?, values?_ofValues items h]
    rfl
  | .object entries, h => by
    rw [ofValue, value?, entryValues?_ofEntries entries h.2, Option.map_some,
      Keyed.ofList_eq_self h.1]

theorem values?_ofValues : (vs : List Value) → Value.DistinctItems vs →
    values? (ofValues vs) = some vs
  | [], _ => rfl
  | v :: vs, h => by
    rw [ofValues, values?, value?_ofValue v h.1, values?_ofValues vs h.2]
    rfl

theorem entryValues?_ofEntries : (es : List (String × Value)) → Value.DistinctEntries es →
    entryValues? (ofEntries es) = some es
  | [], _ => rfl
  | (k, v) :: es, h => by
    rw [ofEntries, entryValues?, value?_ofValue v h.1, entryValues?_ofEntries es h.2]
    rfl

end

mutual

/-- A document that has a value once it is clipped was not changed by that. -/
theorem value?_of_clip : (d : Document) → {n : Nat} → {v : Value} →
    (d.clip n).value? = some v → d.value? = some v
  | .null, n, _, h | .bool _, n, _, h | .number _, n, _, h | .string _, n, _, h
  | .unreadable, n, _, h => by
    cases n <;> exact h
  | .array _, 0, _, h | .object _, 0, _, h => by cases h
  | .array items, n + 1, _, h => by
    obtain ⟨vs, hvs, rfl⟩ := Option.map_eq_some_iff.1 h
    rw [value?, values?_of_clipItems items hvs]
    rfl
  | .object entries, n + 1, _, h => by
    obtain ⟨es, hes, rfl⟩ := Option.map_eq_some_iff.1 h
    rw [value?, entryValues?_of_clipEntries entries hes]
    rfl

theorem values?_of_clipItems : (ds : List Document) → {n : Nat} → {vs : List Value} →
    values? (clipItems n ds) = some vs → values? ds = some vs
  | [], _, _, h => h
  | d :: ds, _, _, h => by
    obtain ⟨v, hv, h⟩ := Option.bind_eq_some_iff.1 h
    obtain ⟨vs, hvs, h⟩ := Option.bind_eq_some_iff.1 h
    rw [values?, value?_of_clip d hv, values?_of_clipItems ds hvs]
    exact h

theorem entryValues?_of_clipEntries : (ds : List (Option String × Document)) → {n : Nat} →
    {es : List (String × Value)} → entryValues? (clipEntries n ds) = some es →
      entryValues? ds = some es
  | [], _, _, h => h
  | (key, d) :: ds, _, _, h => by
    obtain ⟨k, hk, h⟩ := Option.bind_eq_some_iff.1 h
    obtain ⟨v, hv, h⟩ := Option.bind_eq_some_iff.1 h
    obtain ⟨es, hes, h⟩ := Option.bind_eq_some_iff.1 h
    rw [entryValues?, hk, value?_of_clip d hv, entryValues?_of_clipEntries ds hes]
    exact h

end

end Document

/-! ## Parts of a document -/

/-- A value goes no deeper than a document and has no other numbers. -/
structure Value.Within (v : Value) (d : Document) : Prop where
  depth : v.depth ≤ d.depth
  numbers : ∀ n ∈ v.numbers, n ∈ d.numbers

namespace Document

/-- A document goes less deep than another one and has no other numbers. -/
structure Inside (e d : Document) : Prop where
  depth : e.depth < d.depth
  numbers : ∀ n ∈ e.numbers, n ∈ d.numbers

variable {d e : Document} {items : List Document} {entries : List (Option String × Document)}

theorem inside_of_mem_items (h : e ∈ items) : e.Inside (.array items) where
  depth := Nat.lt_succ_of_le (depthOfItems_le_iff.1 (Nat.le_refl _) e h)
  numbers _ hn := mem_numbersOfItems_iff.2 ⟨e, h, hn⟩

theorem inside_of_mem_entries {key : Option String} (h : (key, e) ∈ entries) :
    e.Inside (.object entries) where
  depth := Nat.lt_succ_of_le (depthOfEntries_le_iff.1 (Nat.le_refl _) (key, e) h)
  numbers _ hn := mem_numbersOfEntries_iff.2 ⟨(key, e), h, hn⟩

theorem Inside.of_within {v : Value} (hv : v.Within e) (h : e.Inside d) : (ofValue v).Inside d where
  depth := Nat.lt_of_le_of_lt hv.depth h.depth
  numbers n hn := h.numbers n (hv.numbers n hn)

end Document

namespace Value

variable {d : Document} {items : List Value} {entries : Object}

/-- An array lies within a document that its items lie inside. -/
theorem within_array (hpos : 0 < d.depth) (h : ∀ v ∈ items, (Document.ofValue v).Inside d) :
    (array items).Within d where
  depth := by
    refine Nat.succ_le_of_lt (Nat.lt_of_le_pred hpos (Document.depthOfItems_le_iff.2 ?_))
    rw [Document.ofValues_eq_map, List.forall_mem_map]
    exact fun v hv => Nat.le_pred_of_lt (h v hv).depth
  numbers n hn := by
    obtain ⟨e, he, hn⟩ := Document.mem_numbersOfItems_iff.1 hn
    rw [Document.ofValues_eq_map] at he
    obtain ⟨v, hv, rfl⟩ := List.mem_map.1 he
    exact (h v hv).numbers n hn

/-- An object lies within a document that its entries lie inside. -/
theorem within_object (hpos : 0 < d.depth) (h : ∀ e ∈ entries, (Document.ofValue e.2).Inside d) :
    (object entries).Within d where
  depth := by
    refine Nat.succ_le_of_lt (Nat.lt_of_le_pred hpos (Document.depthOfEntries_le_iff.2 ?_))
    rw [Document.ofEntries_eq_map, List.forall_mem_map]
    exact fun e he => Nat.le_pred_of_lt (h e he).depth
  numbers n hn := by
    obtain ⟨f, hf, hn⟩ := Document.mem_numbersOfEntries_iff.1 hn
    rw [Document.ofEntries_eq_map] at hf
    obtain ⟨e, he, rfl⟩ := List.mem_map.1 hf
    exact (h e he).numbers n hn

end Value

namespace Document

mutual

/-- The value of a document lies within it. -/
theorem within_of_value? : (d : Document) → {v : Value} → d.value? = some v → v.Within d
  | .null, _, h | .bool _, _, h | .number _, _, h | .string _, _, h => by
    obtain rfl := Option.some.inj h
    exact ⟨Nat.le_refl _, fun _ hn => hn⟩
  | .array items, _, h => by
    obtain ⟨vs, hvs, rfl⟩ := Option.map_eq_some_iff.1 h
    refine Value.within_array (Nat.succ_pos _) fun v hv => ?_
    obtain ⟨d, hd, hwithin⟩ := within_of_values? items hvs v hv
    exact .of_within hwithin (inside_of_mem_items hd)
  | .object entries, _, h => by
    obtain ⟨es, hes, rfl⟩ := Option.map_eq_some_iff.1 h
    refine Value.within_object (Nat.succ_pos _) fun e he => ?_
    obtain ⟨key, d, hd, hwithin⟩ :=
      within_of_entryValues? entries hes e.1 e.2 (Keyed.mem_of_mem_ofList he)
    exact .of_within hwithin (inside_of_mem_entries hd)
  | .unreadable, _, h => by cases h

theorem within_of_values? : (ds : List Document) → {vs : List Value} → values? ds = some vs →
    ∀ v ∈ vs, ∃ d ∈ ds, v.Within d
  | [], _, h => by
    obtain rfl := Option.some.inj h
    exact fun v hv => absurd hv List.not_mem_nil
  | d :: ds, _, h => by
    obtain ⟨v, hv, h⟩ := Option.bind_eq_some_iff.1 h
    obtain ⟨vs, hvs, h⟩ := Option.bind_eq_some_iff.1 h
    obtain rfl := Option.some.inj h
    intro w hw
    rcases List.mem_cons.1 hw with rfl | hw
    · exact ⟨d, List.mem_cons_self, within_of_value? d hv⟩
    · obtain ⟨e, he, hwithin⟩ := within_of_values? ds hvs w hw
      exact ⟨e, List.mem_cons_of_mem _ he, hwithin⟩

theorem within_of_entryValues? : (ds : List (Option String × Document)) →
    {es : List (String × Value)} → entryValues? ds = some es →
    ∀ k v, (k, v) ∈ es → ∃ key d, (key, d) ∈ ds ∧ v.Within d
  | [], _, h => by
    obtain rfl := Option.some.inj h
    exact fun k v hv => absurd hv List.not_mem_nil
  | (key, d) :: ds, _, h => by
    obtain ⟨k, hk, h⟩ := Option.bind_eq_some_iff.1 h
    obtain ⟨v, hv, h⟩ := Option.bind_eq_some_iff.1 h
    obtain ⟨es, hes, h⟩ := Option.bind_eq_some_iff.1 h
    obtain rfl := Option.some.inj h
    intro j w hw
    rcases List.mem_cons.1 hw with heq | hw
    · obtain ⟨rfl, rfl⟩ := Prod.mk.inj heq
      exact ⟨key, d, List.mem_cons_self, within_of_value? d hv⟩
    · obtain ⟨other, e, he, hwithin⟩ := within_of_entryValues? ds hes j w hw
      exact ⟨other, e, List.mem_cons_of_mem _ he, hwithin⟩

end

end Document

/-! ## What fits a text -/

namespace Value

variable {n m : Nat} {v : Value} {items : List Value} {entries : Object}

/-- A value goes no deeper than a bound, and its numbers are read back. -/
structure Fits (n : Nat) (v : Value) : Prop where
  depth : v.depth ≤ n
  numbers : v.NumbersReadBack

theorem Fits.mono (h : v.Fits n) (hle : n ≤ m) : v.Fits m := ⟨Nat.le_trans h.depth hle, h.numbers⟩

@[simp] theorem fits_null : (null).Fits n := ⟨Nat.zero_le n, fun _ h => absurd h List.not_mem_nil⟩

@[simp] theorem fits_bool (b : Bool) : (bool b).Fits n :=
  ⟨Nat.zero_le n, fun _ h => absurd h List.not_mem_nil⟩

@[simp] theorem fits_string (s : String) : (string s).Fits n :=
  ⟨Nat.zero_le n, fun _ h => absurd h List.not_mem_nil⟩

@[simp] theorem fits_ofOption (s : Option String) : (ofOption s).Fits n := by
  cases s <;> simp [ofOption]

theorem depth_array_le_iff : (array items).depth ≤ n + 1 ↔ ∀ v ∈ items, v.depth ≤ n := by
  rw [depth, Document.ofValue, Document.depth, Nat.add_le_add_iff_right,
    Document.depthOfItems_le_iff, Document.ofValues_eq_map, List.forall_mem_map]
  rfl

theorem depth_object_le_iff : (object entries).depth ≤ n + 1 ↔ ∀ e ∈ entries, e.2.depth ≤ n := by
  rw [depth, Document.ofValue, Document.depth, Nat.add_le_add_iff_right,
    Document.depthOfEntries_le_iff, Document.ofEntries_eq_map, List.forall_mem_map]
  rfl

theorem mem_numbers_array_iff {number : Number} :
    number ∈ (array items).numbers ↔ ∃ v ∈ items, number ∈ v.numbers := by
  rw [numbers, Document.ofValue, Document.numbers, Document.mem_numbersOfItems_iff,
    Document.ofValues_eq_map]
  simp only [List.mem_map, exists_exists_and_eq_and]
  rfl

theorem mem_numbers_object_iff {number : Number} :
    number ∈ (object entries).numbers ↔ ∃ e ∈ entries, number ∈ e.2.numbers := by
  rw [numbers, Document.ofValue, Document.numbers, Document.mem_numbersOfEntries_iff,
    Document.ofEntries_eq_map]
  simp only [List.mem_map, exists_exists_and_eq_and]
  rfl

@[simp] theorem fits_array_iff : (array items).Fits (n + 1) ↔ ∀ v ∈ items, v.Fits n := by
  constructor
  · intro h v hv
    exact ⟨depth_array_le_iff.1 h.depth v hv,
      fun number hn => h.numbers number (mem_numbers_array_iff.2 ⟨v, hv, hn⟩)⟩
  · intro h
    refine ⟨depth_array_le_iff.2 fun v hv => (h v hv).depth, fun number hn => ?_⟩
    obtain ⟨v, hv, hn⟩ := mem_numbers_array_iff.1 hn
    exact (h v hv).numbers number hn

@[simp] theorem fits_object_iff : (object entries).Fits (n + 1) ↔ ∀ e ∈ entries, e.2.Fits n := by
  constructor
  · intro h e he
    exact ⟨depth_object_le_iff.1 h.depth e he,
      fun number hn => h.numbers number (mem_numbers_object_iff.2 ⟨e, he, hn⟩)⟩
  · intro h
    refine ⟨depth_object_le_iff.2 fun e he => (h e he).depth, fun number hn => ?_⟩
    obtain ⟨e, he, hn⟩ := mem_numbers_object_iff.1 hn
    exact (h e he).numbers number hn

@[simp] theorem fits_ofStrings (texts : List String) : (ofStrings texts).Fits (n + 1) := by
  rw [ofStrings, fits_array_iff, List.forall_mem_map]
  exact fun s _ => fits_string s

@[simp] theorem fits_ofTexts (texts : Keyed String) : (ofTexts texts).Fits (n + 1) := by
  rw [ofTexts, fits_object_iff, List.forall_mem_map]
  exact fun e _ => fits_string e.2

/-- Every binary64 number of a value is read back. -/
def FloatsReadBack (v : Value) : Prop :=
  ∀ x, .float x ∈ v.numbers → (Number.float x).ReadsBack

/-- **All numbers that were read are read back if the binary64 numbers
are**, since integers of sixty-four bits are. -/
theorem FloatsReadBack.numbers {text : String} {d : Document} (h : v.FloatsReadBack)
    (hd : Document.read? text = some d) (hv : ∀ n ∈ v.numbers, n ∈ d.numbers) :
    v.NumbersReadBack := by
  intro n hn
  refine Number.readsBack_of_wellFormed (Document.wellFormed_of_read? hd n (hv n hn)) ?_
  rintro x rfl
  exact h x hn

end Value

/-! ## Texts -/

namespace Layout

variable {v : Value}

/-- A value that fits is read as its document. -/
theorem read?_text_of_fits (l : Layout) (h : v.Fits Document.maxDepth) :
    Document.read? (l.text v) = some (.ofValue v) := by
  rw [l.read?_text h.numbers, Document.clip_eq_self _ h.depth]

/-- **A value that fits is read back**, if its names are distinct. -/
theorem value_read?_text (l : Layout) (h : v.Fits Document.maxDepth) (hdistinct : v.Distinct) :
    Value.read? (l.text v) = some v := by
  rw [Value.read?, l.read?_text_of_fits h]
  exact Document.value?_ofValue v hdistinct

end Layout

/-- **A value that was read is read back**, if its binary64 numbers are. -/
theorem Value.readsBack_of_read? {text : String} {v : Value} (h : read? text = some v)
    (hfloats : v.FloatsReadBack) : v.ReadsBack := by
  obtain ⟨d, hd, hv⟩ := Option.bind_eq_some_iff.1 h
  have hwithin := d.within_of_value? hv
  have hdepth : v.depth ≤ Document.maxDepth :=
    Nat.le_trans hwithin.depth (Document.depth_le_of_read? hd)
  rw [ReadsBack, ← Layout.text_pretty]
  exact Layout.value_read?_text _ ⟨hdepth, hfloats.numbers hd hwithin.numbers⟩
    (distinct_of_read? h)

/-- **A value is not misread**, if its names are distinct and its numbers are
read back: where it is nested too deep its text is not read at all. -/
theorem Value.notMisread_of_distinct {v : Value} (hdistinct : v.Distinct)
    (hnumbers : v.NumbersReadBack) : v.NotMisread := by
  intro w hw
  rw [← Layout.text_pretty, Value.read?, Layout.read?_text _ hnumbers, Option.bind_some] at hw
  have hvalue := Document.value?_of_clip _ hw
  rw [Document.value?_ofValue v hdistinct] at hvalue
  exact (Option.some.inj hvalue).symm

end Json

end SplitBuild
