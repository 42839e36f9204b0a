import SplitBuild.Proofs.Json.Layout
/-!
# The numbers of a text

Every number of a document that was read is what some numeral stands for,
so its integers fit sixty-four bits (`Document.wellFormed_of_read?`). The
readers call each other with one step less, so this is shown for all of
them at once, by induction on the steps (`Reader.numbered`).
-/

namespace SplitBuild

namespace Json

namespace Document

variable {n : Number} {items : List Document} {entries : List (Option String × Document)}

theorem mem_numbersOfItems_iff : n ∈ numbersOfItems items ↔ ∃ d ∈ items, n ∈ d.numbers := by
  induction items with
  | nil => simp [numbersOfItems]
  | cons d ds ih => rw [numbersOfItems, List.mem_append, ih, List.exists_mem_cons_iff]

theorem mem_numbersOfEntries_iff :
    n ∈ numbersOfEntries entries ↔ ∃ e ∈ entries, n ∈ e.2.numbers := by
  induction entries with
  | nil => simp [numbersOfEntries]
  | cons e es ih => rw [numbersOfEntries, List.mem_append, ih, List.exists_mem_cons_iff]

end Document

namespace Reader

variable {steps : Nat} {s rest : List Char} {d : Document} {n : Number}

/-- The numbers that are read in some steps are well formed. -/
structure Numbered (steps : Nat) : Prop where
  document : ∀ {s rest : List Char} {d : Document}, document? steps s = some (d, rest) →
    ∀ n ∈ d.numbers, n.WellFormed
  items : ∀ {s rest : List Char} {ds : List Document}, items? steps s = some (ds, rest) →
    ∀ n ∈ Document.numbersOfItems ds, n.WellFormed
  entries : ∀ {s rest : List Char} {es : List (Option String × Document)},
    entries? steps s = some (es, rest) → ∀ n ∈ Document.numbersOfEntries es, n.WellFormed

theorem numbers_ofText (t : Option String) : (ofText t).numbers = [] := by cases t <;> rfl

theorem wellFormed_ofNumber {numeral : Numeral} :
    ∀ n ∈ (ofNumber numeral.number?).numbers, n.WellFormed := by
  intro n hn
  cases hnumber : numeral.number? with
  | none =>
    rw [hnumber] at hn
    cases hn
  | some m =>
    rw [hnumber] at hn
    obtain rfl := List.mem_singleton.1 hn
    exact Numeral.wellFormed_of_number? hnumber

theorem Numbered.document_succ (h : Numbered steps) (hs : document? (steps + 1) s = some (d, rest)) :
    ∀ n ∈ d.numbers, n.WellFormed := by
  rw [document?.eq_def] at hs
  split at hs
  · rename_i hzero
    cases hzero
  · -- a string
    obtain ⟨p, -, hp⟩ := Option.map_eq_some_iff.1 hs
    obtain ⟨rfl, -⟩ := Prod.mk.inj hp
    rw [numbers_ofText]
    exact List.forall_mem_nil _
  · -- an array
    rename_i hsteps
    obtain rfl := Nat.succ.inj hsteps
    split at hs
    · obtain ⟨rfl, -⟩ := Prod.mk.inj (Option.some.inj hs)
      exact List.forall_mem_nil _
    · obtain ⟨p, hp, hs⟩ := Option.map_eq_some_iff.1 hs
      obtain ⟨rfl, -⟩ := Prod.mk.inj hs
      exact h.items hp
  · -- an object
    rename_i hsteps
    obtain rfl := Nat.succ.inj hsteps
    split at hs
    · obtain ⟨rfl, -⟩ := Prod.mk.inj (Option.some.inj hs)
      exact List.forall_mem_nil _
    · obtain ⟨p, hp, hs⟩ := Option.map_eq_some_iff.1 hs
      obtain ⟨rfl, -⟩ := Prod.mk.inj hs
      exact h.entries hp
  · obtain ⟨rfl, -⟩ := Prod.mk.inj (Option.some.inj hs)
    exact List.forall_mem_nil _
  · obtain ⟨rfl, -⟩ := Prod.mk.inj (Option.some.inj hs)
    exact List.forall_mem_nil _
  · obtain ⟨rfl, -⟩ := Prod.mk.inj (Option.some.inj hs)
    exact List.forall_mem_nil _
  · -- a number
    obtain ⟨p, -, hp⟩ := Option.map_eq_some_iff.1 hs
    obtain ⟨rfl, -⟩ := Prod.mk.inj hp
    exact wellFormed_ofNumber

theorem Numbered.items_succ (h : Numbered steps) {ds : List Document}
    (hs : items? (steps + 1) s = some (ds, rest)) :
    ∀ n ∈ Document.numbersOfItems ds, n.WellFormed := by
  rw [items?] at hs
  obtain ⟨⟨d, t⟩, hd, hs⟩ := Option.bind_eq_some_iff.1 hs
  have hhead := h.document hd
  simp only at hs
  split at hs
  · obtain ⟨⟨es, u⟩, hes, hs⟩ := Option.bind_eq_some_iff.1 hs
    obtain ⟨rfl, -⟩ := Prod.mk.inj (Option.some.inj hs)
    exact List.forall_mem_append.2 ⟨hhead, h.items hes⟩
  · obtain ⟨rfl, -⟩ := Prod.mk.inj (Option.some.inj hs)
    exact List.forall_mem_append.2 ⟨hhead, List.forall_mem_nil _⟩
  · cases hs

theorem Numbered.entries_succ (h : Numbered steps) {es : List (Option String × Document)}
    (hs : entries? (steps + 1) s = some (es, rest)) :
    ∀ n ∈ Document.numbersOfEntries es, n.WellFormed := by
  rw [entries?.eq_def] at hs
  simp only at hs
  split at hs
  · rename_i hzero
    cases hzero
  · rename_i hsteps
    obtain rfl := Nat.succ.inj hsteps
    obtain ⟨⟨k, t⟩, -, hs⟩ := Option.bind_eq_some_iff.1 hs
    simp only at hs
    split at hs
    · obtain ⟨⟨d, u⟩, hd, hs⟩ := Option.bind_eq_some_iff.1 hs
      have hhead := h.document hd
      simp only at hs
      split at hs
      · obtain ⟨⟨fs, w⟩, hfs, hs⟩ := Option.bind_eq_some_iff.1 hs
        obtain ⟨rfl, -⟩ := Prod.mk.inj (Option.some.inj hs)
        exact List.forall_mem_append.2 ⟨hhead, h.entries hfs⟩
      · obtain ⟨rfl, -⟩ := Prod.mk.inj (Option.some.inj hs)
        exact List.forall_mem_append.2 ⟨hhead, List.forall_mem_nil _⟩
      · cases hs
    · cases hs
  · cases hs

/-- **Every number that is read is well formed.** -/
theorem numbered (steps : Nat) : Numbered steps := by
  induction steps with
  | zero => exact ⟨fun h => (by cases h), fun h => (by cases h), fun h => (by cases h)⟩
  | succ steps ih => exact ⟨ih.document_succ, ih.items_succ, ih.entries_succ⟩

end Reader

namespace Document

mutual

/-- What is left of a document has no other numbers. -/
theorem mem_numbers_of_clip {n : Number} (k : Nat) : (d : Document) → n ∈ (d.clip k).numbers →
    n ∈ d.numbers
  | .null, h | .bool _, h | .number _, h | .string _, h | .unreadable, h => by cases k <;> exact h
  | .array items, h =>
    match k, h with
    | k + 1, h => mem_numbers_of_clipItems k items h
  | .object entries, h =>
    match k, h with
    | k + 1, h => mem_numbers_of_clipEntries k entries h

theorem mem_numbers_of_clipItems {n : Number} (k : Nat) : (ds : List Document) →
    n ∈ numbersOfItems (clipItems k ds) → n ∈ numbersOfItems ds
  | d :: ds, h => (List.mem_append.1 h).elim
    (fun h => List.mem_append_left _ (mem_numbers_of_clip k d h))
    (fun h => List.mem_append_right _ (mem_numbers_of_clipItems k ds h))

theorem mem_numbers_of_clipEntries {n : Number} (k : Nat) :
    (es : List (Option String × Document)) → n ∈ numbersOfEntries (clipEntries k es) →
    n ∈ numbersOfEntries es
  | (_, d) :: es, h => (List.mem_append.1 h).elim
    (fun h => List.mem_append_left _ (mem_numbers_of_clip k d h))
    (fun h => List.mem_append_right _ (mem_numbers_of_clipEntries k es h))

end

/-- **Every number of a document that was read is well formed.** -/
theorem wellFormed_of_read? {text : String} {d : Document} (h : read? text = some d) :
    ∀ n ∈ d.numbers, n.WellFormed := by
  simp only [read?] at h
  split at h
  · rename_i d rest hread
    split at h
    · obtain rfl := Option.some.inj h
      exact fun n hn => (Reader.numbered _).document hread n (mem_numbers_of_clip maxDepth d hn)
    · cases h
  · cases h

end Document

end Json

end SplitBuild
