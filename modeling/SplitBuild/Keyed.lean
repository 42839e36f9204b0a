/-!
# Keyed lists

A keyed list holds values under names in the order in which the names
first came. Writing to a name that is present keeps its place; a new name
goes to the end. `get?_put` says what a write leaves to be read, and
`keys_put` where the names stand: none of them stands twice in what is
written entry by entry (`nodup_keys_ofList`).
-/

namespace SplitBuild

/-- Values under names, in the order in which the names first came. -/
abbrev Keyed (α : Type) := List (String × α)

namespace Keyed

variable {α : Type}

/-- The names, in order. -/
def keys (entries : Keyed α) : List String := entries.map Prod.fst

/-- The value under a name. -/
def get? : Keyed α → String → Option α
  | [], _ => none
  | e :: es, k => if e.1 = k then some e.2 else get? es k

/-- A name has a value. -/
def contains (entries : Keyed α) (k : String) : Bool := (get? entries k).isSome

/-- The list with a value under a name. -/
def put : Keyed α → String → α → Keyed α
  | [], k, v => [(k, v)]
  | e :: es, k, v => if e.1 = k then (k, v) :: es else e :: put es k v

/-- The list with several values put in turn. -/
def putAll (entries news : Keyed α) : Keyed α :=
  news.foldl (fun acc e => put acc e.1 e.2) entries

/-- The list without a name. -/
def erase (entries : Keyed α) (k : String) : Keyed α := entries.filter fun e => e.1 ≠ k

/-- The keyed list of a list in which names may repeat: a name keeps its
first place and takes its last value. -/
def ofList (entries : List (String × α)) : Keyed α := putAll [] entries

/-- A write is read back under its own name and changes no other. -/
theorem get?_put (entries : Keyed α) (k j : String) (v : α) :
    get? (put entries k v) j = if k = j then some v else get? entries j := by
  induction entries with
  | nil => simp [put, get?]
  | cons e es ih =>
    unfold put
    split
    · rename_i h
      subst h
      by_cases hj : e.1 = j <;> simp [get?, hj]
    · rename_i h
      by_cases hj : e.1 = j
      · subst hj
        simp [get?, Ne.symm h]
      · simp [get?, hj, ih]

/-- A name has a value exactly when it stands in the list. -/
theorem isSome_get?_iff {entries : Keyed α} {k : String} :
    (get? entries k).isSome ↔ k ∈ keys entries := by
  induction entries with
  | nil => simp [get?, keys]
  | cons e es ih =>
    by_cases h : e.1 = k
    · simp [get?, keys, h]
    · simp [get?, keys, h, ih, Ne.symm h]

/-- Writing moves no name, and a new name goes to the end. -/
theorem keys_put (entries : Keyed α) (k : String) (v : α) :
    keys (put entries k v) = if k ∈ keys entries then keys entries else keys entries ++ [k] := by
  induction entries with
  | nil => simp [put, keys]
  | cons e es ih =>
    unfold put
    split
    · rename_i h
      simp [keys, h]
    · rename_i h
      simp only [keys, List.map_cons] at ih ⊢
      rw [ih]
      by_cases hk : k ∈ es.map Prod.fst <;> simp [hk, Ne.symm h]

theorem mem_keys_put {entries : Keyed α} {j k : String} {v : α} :
    j ∈ keys (put entries k v) ↔ j = k ∨ j ∈ keys entries := by
  rw [keys_put]
  split
  · rename_i hk
    constructor
    · exact .inr
    · rintro (rfl | h)
      · exact hk
      · exact h
  · rw [List.mem_append, List.mem_singleton, or_comm]

theorem nodup_keys_put {entries : Keyed α} {k : String} {v : α} (h : (keys entries).Nodup) :
    (keys (put entries k v)).Nodup := by
  rw [keys_put]
  split
  · exact h
  · rename_i hk
    refine List.nodup_append.2 ⟨h, List.pairwise_singleton _ k, ?_⟩
    rintro j hj _ hjk rfl
    exact hk (List.mem_singleton.1 hjk ▸ hj)

/-- The names of what is written entry by entry are those of the entries. -/
theorem mem_keys_putAll {entries news : Keyed α} {j : String} :
    j ∈ keys (putAll entries news) ↔ j ∈ keys entries ∨ j ∈ keys news := by
  induction news generalizing entries with
  | nil => simp [putAll, keys]
  | cons e es ih =>
    have hrest : j ∈ keys (putAll entries (e :: es)) ↔
        j ∈ keys (put entries e.1 e.2) ∨ j ∈ keys es := ih
    have hcons : j ∈ keys (e :: es) ↔ j = e.1 ∨ j ∈ keys es := List.mem_cons
    rw [hrest, mem_keys_put, hcons, or_assoc, or_left_comm]

theorem nodup_keys_putAll {entries news : Keyed α} (h : (keys entries).Nodup) :
    (keys (putAll entries news)).Nodup := by
  induction news generalizing entries with
  | nil => exact h
  | cons e es ih => exact ih (nodup_keys_put h)

/-- Making a keyed list of a list loses no name. -/
theorem mem_keys_ofList {entries : List (String × α)} {k : String} :
    k ∈ keys (ofList entries) ↔ k ∈ keys entries := by
  rw [ofList, mem_keys_putAll]
  exact or_iff_right List.not_mem_nil

/-- The names of a keyed list that was made of a list are distinct. -/
theorem nodup_keys_ofList (entries : List (String × α)) : (keys (ofList entries)).Nodup :=
  nodup_keys_putAll List.nodup_nil

end Keyed

end SplitBuild
