import SplitBuild.Keyed
import SplitBuild.Names
import Mathlib.Data.List.Induction
import Mathlib.Data.List.Nodup
/-!
# What a keyed list holds

Reading a keyed list is finding the first entry with a name. Of several
writes to a name the last is read back (`get?_putAll`), so a keyed list
made of a list holds under each name the last value there
(`get?_ofList`), in the order in which the names first came
(`keys_ofList`). Writing what is already held changes nothing
(`put_eq_self`), and for several writes that is all that changes nothing
(`putAll_eq_self_iff`). A map into which the entries are inserted in turn
holds the same (`getElem?_foldl_insert`).
-/

namespace SplitBuild

namespace Keyed

variable {α : Type} {entries news : Keyed α} {j k : String} {v w : α}

theorem get?_eq_find? (entries : Keyed α) (k : String) :
    get? entries k = (entries.find? fun e => e.1 = k).map Prod.snd := by
  induction entries with
  | nil => rfl
  | cons e es ih =>
    rw [get?, List.find?_cons]
    by_cases h : e.1 = k
    · simp [h]
    · simp [h, ih]

/-- Values are changed under their names. -/
theorem get?_map {β : Type} (f : α → β) (entries : Keyed α) (k : String) :
    get? (entries.map fun e => (e.1, f e.2)) k = (get? entries k).map f := by
  induction entries with
  | nil => rfl
  | cons e es ih =>
    rw [List.map_cons, get?, get?]
    by_cases h : e.1 = k
    · rw [if_pos h, if_pos h, Option.map_some]
    · rw [if_neg h, if_neg h, ih]

theorem keys_map {β : Type} (f : α → β) (entries : Keyed α) :
    keys (entries.map fun e => (e.1, f e.2)) = keys entries := by
  rw [keys, keys, List.map_map]
  rfl

theorem get?_append (entries news : Keyed α) (k : String) :
    get? (entries ++ news) k = (get? entries k).or (get? news k) := by
  simp only [get?_eq_find?, List.find?_append, Option.map_or]

/-- **Of several writes to a name the last is read back.** -/
theorem get?_putAll (entries news : Keyed α) (k : String) :
    get? (putAll entries news) k = (get? news.reverse k).or (get? entries k) := by
  induction news generalizing entries with
  | nil => rfl
  | cons e es ih =>
    rw [putAll, List.foldl_cons]
    change get? (putAll (put entries e.1 e.2) es) k = _
    rw [ih, get?_put, List.reverse_cons, get?_append, Option.or_assoc]
    congr 1
    by_cases h : e.1 = k <;> simp [get?, h]

theorem putAll_append (entries news later : Keyed α) :
    putAll entries (news ++ later) = putAll (putAll entries news) later := List.foldl_append

theorem ofList_concat (entries : List (String × α)) (e : String × α) :
    ofList (entries ++ [e]) = put (ofList entries) e.1 e.2 := putAll_append [] entries [e]

/-- A keyed list holds under each name the last value that was there. -/
theorem get?_ofList (entries : List (String × α)) (k : String) :
    get? (ofList entries) k = get? entries.reverse k := by
  rw [ofList, get?_putAll]
  simp [get?]

theorem isSome_get?_ofList_iff {entries : List (String × α)} :
    (get? (ofList entries) k).isSome ↔ k ∈ keys entries := by
  rw [isSome_get?_iff, mem_keys_ofList]

theorem get?_ofList_eq_none_iff {entries : List (String × α)} :
    get? (ofList entries) k = none ↔ k ∉ keys entries := by
  rw [← isSome_get?_ofList_iff, Option.not_isSome_iff_eq_none]

/-- A write of what is already held changes nothing. -/
theorem put_eq_self (h : get? entries k = some v) : put entries k v = entries := by
  induction entries with
  | nil => simp [get?] at h
  | cons e es ih =>
    unfold put
    rw [get?] at h
    split at h
    · rename_i hk
      rw [if_pos hk]
      obtain rfl := Option.some.inj h
      rw [← hk]
    · rename_i hk
      rw [if_neg hk, ih h]

/-- Writing moves no name, and new names go to the end. -/
theorem keys_prefix_putAll (entries news : Keyed α) : keys entries <+: keys (putAll entries news) := by
  induction news generalizing entries with
  | nil => exact List.prefix_refl _
  | cons e es ih =>
    have hput : keys entries <+: keys (put entries e.1 e.2) := by
      rw [keys_put]
      split
      · exact List.prefix_refl _
      · exact List.prefix_append _ _
    exact hput.trans (ih _)

/-- A second write to a name undoes the first. -/
theorem put_put : put (put entries k v) k w = put entries k w := by
  induction entries with
  | nil => simp [put]
  | cons e es ih =>
    by_cases h : e.1 = k
    · simp [put, h]
    · simp [put, h, ih]

/-- Writes to two names commute, where one of the names is there. -/
theorem put_comm (hjk : j ≠ k) (hk : k ∈ keys entries) :
    put (put entries k v) j w = put (put entries j w) k v := by
  induction entries with
  | nil => simp [keys] at hk
  | cons e es ih =>
    by_cases h : e.1 = k
    · have hej : e.1 ≠ j := fun hej => hjk (hej.symm.trans h)
      simp [put, h, hjk.symm]
    · have hes : k ∈ keys es := by
        rcases List.mem_cons.1 hk with hk | hk
        · exact absurd hk.symm h
        · exact hk
      by_cases hej : e.1 = j
      · simp [put, hej, hjk]
      · simp [put, h, hej, ih hes]

/-- A write that others to its name follow does not matter. -/
theorem putAll_put (hnews : k ∈ keys news) (hk : k ∈ keys entries) :
    putAll (put entries k v) news = putAll entries news := by
  induction news generalizing entries with
  | nil => simp [keys] at hnews
  | cons e es ih =>
    change putAll (put (put entries k v) e.1 e.2) es = putAll (put entries e.1 e.2) es
    by_cases he : e.1 = k
    · rw [he, put_put]
    · have hes : k ∈ keys es := by
        rcases List.mem_cons.1 hnews with h | h
        · exact absurd h.symm he
        · exact h
      rw [put_comm he hk, ih hes (mem_keys_put.2 (.inr hk))]

/-- **Several writes change nothing exactly if their last values are
held.** -/
theorem putAll_eq_self_iff : putAll entries news = entries ↔
    ∀ k v, get? (ofList news) k = some v → get? entries k = some v := by
  constructor
  · intro h k v hv
    rw [get?_ofList] at hv
    rw [← h, get?_putAll, hv, Option.some_or]
  · intro h
    induction news with
    | nil => rfl
    | cons e es ih =>
      change putAll (put entries e.1 e.2) es = entries
      have hlast : ∀ k v, get? (ofList es) k = some v → get? (ofList (e :: es)) k = some v := by
        intro k v hv
        rw [get?_ofList] at hv ⊢
        rw [List.reverse_cons, get?_append, hv, Option.some_or]
      have hes := ih fun k v hv => h k v (hlast k v hv)
      by_cases he : e.1 ∈ keys es
      · -- a later write to the name undoes this one
        obtain ⟨v, hv⟩ := Option.isSome_iff_exists.1 (isSome_get?_ofList_iff.2 he)
        have hheld : get? entries e.1 = some v := h _ _ (hlast _ _ hv)
        rw [putAll_put he (isSome_get?_iff.1 (by rw [hheld]; rfl)), hes]
      · have hnone : get? es.reverse e.1 = none := by
          rw [← get?_ofList]
          exact get?_ofList_eq_none_iff.2 he
        have hheld : get? entries e.1 = some e.2 := by
          refine h _ _ ?_
          rw [get?_ofList, List.reverse_cons, get?_append, hnone]
          simp [get?]
        rw [put_eq_self hheld, hes]

/-- Of the writes of two lists those of the second are read back first. -/
theorem get?_ofList_append {entries news : List (String × α)} :
    get? (ofList (entries ++ news)) k = (get? (ofList news) k).or (get? (ofList entries) k) := by
  simp only [get?_ofList, List.reverse_append, get?_append]

theorem get?_erase (entries : Keyed α) (k j : String) :
    get? (erase entries k) j = if k = j then none else get? entries j := by
  rw [erase, get?_eq_find?, get?_eq_find?, List.find?_filter]
  by_cases h : k = j
  · subst h
    simp
  · rw [if_neg h]
    congr 2
    funext e
    by_cases he : e.1 = j
    · simp [he, Ne.symm h]
    · simp [he]

/-! ## Distinct names -/

theorem mem_of_get? (h : get? entries k = some v) : (k, v) ∈ entries := by
  rw [get?_eq_find?, Option.map_eq_some_iff] at h
  obtain ⟨⟨j, w⟩, he, rfl⟩ := h
  obtain rfl : j = k := by simpa using List.find?_some he
  exact List.mem_of_find?_eq_some he

/-- Where names are distinct every entry is found. -/
theorem get?_of_mem (hnodup : (keys entries).Nodup) (h : (k, v) ∈ entries) :
    get? entries k = some v := by
  induction entries with
  | nil => cases h
  | cons e es ih =>
    obtain ⟨hhead, htail⟩ := List.nodup_cons.1 hnodup
    rw [get?]
    rcases List.mem_cons.1 h with rfl | h
    · rw [if_pos rfl]
    · have hne : e.1 ≠ k := fun he => hhead (he ▸ List.mem_map_of_mem h)
      rw [if_neg hne, ih htail h]

/-- **A name stands where it first came, and only there.** -/
theorem keys_ofList (entries : List (String × α)) :
    keys (ofList entries) = (keys entries).eraseDups := by
  induction entries using List.reverseRecOn with
  | nil => rfl
  | append_singleton entries e ih =>
    have hkeys : keys (entries ++ [e]) = keys entries ++ [e.1] := List.map_append
    rw [ofList_concat, keys_put, ih, hkeys, List.eraseDups_append]
    by_cases he : e.1 ∈ keys entries
    · have hold : [e.1].removeAll (keys entries) = [] := by simp [List.removeAll, he]
      rw [if_pos (List.mem_eraseDups.2 he), hold, List.eraseDups_nil, List.append_nil]
    · have hnew : [e.1].removeAll (keys entries) = [e.1] := by simp [List.removeAll, he]
      rw [if_neg (fun h => he (List.mem_eraseDups.1 h)), hnew]
      rfl

/-- The entries of a keyed list that was made of a list stood in the list. -/
theorem mem_of_mem_ofList {entries : List (String × α)} (h : (k, v) ∈ ofList entries) :
    (k, v) ∈ entries := by
  have hread := get?_of_mem (nodup_keys_ofList entries) h
  rw [get?_ofList] at hread
  exact List.mem_reverse.1 (mem_of_get? hread)

theorem put_of_not_mem (h : k ∉ keys entries) : put entries k v = entries ++ [(k, v)] := by
  induction entries with
  | nil => rfl
  | cons e es ih =>
    obtain ⟨hhead, htail⟩ := not_or.1 (fun hk => h (List.mem_cons.2 hk))
    rw [put, if_neg (Ne.symm hhead), ih htail, List.cons_append]

/-- Entries with new and distinct names go to the end. -/
theorem putAll_eq_append (hnodup : (keys news).Nodup) (hnew : ∀ k ∈ keys news, k ∉ keys entries) :
    putAll entries news = entries ++ news := by
  induction news generalizing entries with
  | nil => exact (List.append_nil entries).symm
  | cons e es ih =>
    obtain ⟨hhead, htail⟩ := List.nodup_cons.1 hnodup
    obtain ⟨he, hes⟩ := List.forall_mem_cons.1 hnew
    change putAll (put entries e.1 e.2) es = entries ++ e :: es
    rw [ih htail, put_of_not_mem he, List.append_assoc, List.singleton_append]
    intro k hk hput
    rcases mem_keys_put.1 hput with rfl | hput
    · exact hhead hk
    · exact hes k hk hput

/-- A list in which no name repeats is the keyed list that is made of it. -/
theorem ofList_eq_self (h : (keys entries).Nodup) : ofList entries = entries :=
  putAll_eq_append h fun _ _ => List.not_mem_nil

/-! ## Names that are changed -/

section Rename

variable {rename : String → String}

/-- Names may be changed before a write or after it. -/
theorem put_map_key (h : Function.Injective rename) :
    put (entries.map fun e => (rename e.1, e.2)) (rename k) v =
      (put entries k v).map fun e => (rename e.1, e.2) := by
  induction entries with
  | nil => rfl
  | cons e es ih =>
    rw [List.map_cons, put, put]
    by_cases he : e.1 = k
    · rw [if_pos (congrArg rename he), if_pos he, List.map_cons]
    · rw [if_neg (h.ne he), if_neg he, List.map_cons, ih]

/-- Names may be changed before a keyed list is made of a list or after. -/
theorem ofList_map_key (h : Function.Injective rename) (entries : List (String × α)) :
    ofList (entries.map fun e => (rename e.1, e.2)) =
      (ofList entries).map fun e => (rename e.1, e.2) := by
  induction entries using List.reverseRecOn with
  | nil => rfl
  | append_singleton entries e ih =>
    rw [List.map_append, List.map_singleton, ofList_concat, ofList_concat, ih, put_map_key h]

end Rename

/-! ## Some of the names -/

/-- Where names are distinct there is at most one entry under a name. -/
theorem filter_eq_of_nodup (h : (keys entries).Nodup) (k : String) :
    entries.filter (fun e => e.1 = k) = ((get? entries k).map fun v => (k, v)).toList := by
  induction entries with
  | nil => rfl
  | cons e es ih =>
    obtain ⟨hhead, htail⟩ := List.nodup_cons.1 h
    rw [List.filter_cons, get?]
    by_cases he : e.1 = k
    · have hnone : get? es k = none := by
        refine Option.not_isSome_iff_eq_none.1 fun hsome => hhead ?_
        exact he ▸ isSome_get?_iff.1 hsome
      rw [if_pos (decide_eq_true he), if_pos he, ih htail, hnone, ← he]
      rfl
    · rw [if_neg (by simpa using he), if_neg he, ih htail]

theorem filter_put (p : String → Bool) : (put entries k v).filter (fun e => p e.1) =
    if p k then put (entries.filter fun e => p e.1) k v else entries.filter fun e => p e.1 := by
  induction entries with
  | nil => simp only [put, List.filter_cons, List.filter_nil]
  | cons e es ih =>
    by_cases h : e.1 = k
    · subst h
      by_cases hp : p e.1 <;> simp [put, hp]
    · by_cases hp : p e.1 <;> by_cases hk : p k <;> simp [put, h, hp, hk, ih]

/-- Making a keyed list of the entries of some names is picking the entries
of these names from the keyed list. -/
theorem filter_ofList (p : String → Bool) (entries : List (String × α)) :
    (ofList entries).filter (fun e => p e.1) = ofList (entries.filter fun e => p e.1) := by
  induction entries using List.reverseRecOn with
  | nil => rfl
  | append_singleton entries e ih =>
    rw [ofList_concat, filter_put, ih, List.filter_append, List.filter_singleton]
    by_cases hp : p e.1
    · rw [if_pos hp, hp, cond_true]
      exact (putAll_append [] _ [e]).symm
    · rw [if_neg hp, Bool.eq_false_iff.2 hp, cond_false, List.append_nil]

/-! ## Maps of the entries -/

/-- A map into which entries are inserted in turn holds the last value under
each name, as the keyed list of the entries does. -/
theorem getElem?_foldl_insert (entries : List (String × α)) (m : NameMap α) (k : String) :
    (entries.foldl (fun m e => m.insert e.1 e.2) m)[k]? = (get? (ofList entries) k).or m[k]? := by
  induction entries using List.reverseRecOn with
  | nil => rfl
  | append_singleton entries e ih =>
    rw [List.foldl_append, List.foldl_cons, List.foldl_nil, Std.ExtTreeMap.getElem?_insert, ih,
      ofList_concat, get?_put]
    simp only [Std.compare_eq_iff_eq]
    split <;> rfl

end Keyed

end SplitBuild
