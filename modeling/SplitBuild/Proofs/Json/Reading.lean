import SplitBuild.Json.Printer
import SplitBuild.Json.Reader
import SplitBuild.Proofs.Keyed
/-!
# What is read of a text

A text may give an entry of an object twice, and a document keeps both. A
value does not: **the names of every object that is read are distinct**
(`Value.distinct_of_read?`).

Not every value is read back from the text that is written for it: the
reader rounds the decimal of a binary64 number more than once and refuses
what is nested too deep. `Value.ReadsBack` says of a value that it is, and
`Value.NotMisread` that it is read back if its text is read at all.
-/

namespace SplitBuild

namespace Json

namespace Value

mutual

/-- The names of every object in a value are distinct. -/
def Distinct : Value → Prop
  | .array items => DistinctItems items
  | .object entries => (Keyed.keys entries).Nodup ∧ DistinctEntries entries
  | _ => True

def DistinctItems : List Value → Prop
  | [] => True
  | v :: vs => Distinct v ∧ DistinctItems vs

def DistinctEntries : List (String × Value) → Prop
  | [] => True
  | (_, v) :: es => Distinct v ∧ DistinctEntries es

end

theorem distinctItems_iff {items : List Value} :
    DistinctItems items ↔ ∀ v ∈ items, v.Distinct := by
  induction items with
  | nil => simp [DistinctItems]
  | cons v vs ih => rw [DistinctItems, ih, List.forall_mem_cons]

theorem distinctEntries_iff {entries : List (String × Value)} :
    DistinctEntries entries ↔ ∀ k v, (k, v) ∈ entries → Distinct v := by
  induction entries with
  | nil => simp [DistinctEntries]
  | cons e es ih =>
    rw [DistinctEntries, ih]
    constructor
    · rintro ⟨hv, hes⟩ k v h
      rcases List.mem_cons.1 h with rfl | h
      · exact hv
      · exact hes k v h
    · intro h
      exact ⟨h e.1 e.2 List.mem_cons_self, fun k v hmem => h k v (List.mem_cons_of_mem _ hmem)⟩

end Value

namespace Document

mutual

/-- An entry that repeats gives way to the last one of its name. -/
theorem distinct_of_value? : (d : Document) → {v : Value} → d.value? = some v → v.Distinct
  | .null, _, h | .bool _, _, h | .number _, _, h | .string _, _, h => by
    obtain rfl := Option.some.inj h
    trivial
  | .array items, _, h => by
    obtain ⟨vs, hvs, rfl⟩ := Option.map_eq_some_iff.1 h
    exact distinct_of_values? items hvs
  | .object entries, _, h => by
    obtain ⟨es, hes, rfl⟩ := Option.map_eq_some_iff.1 h
    have hdistinct := Value.distinctEntries_iff.1 (distinct_of_entryValues? entries hes)
    refine ⟨Keyed.nodup_keys_ofList es, Value.distinctEntries_iff.2 fun k v hmem => ?_⟩
    exact hdistinct k v (Keyed.mem_of_mem_ofList hmem)
  | .unreadable, _, h => by cases h

theorem distinct_of_values? : (ds : List Document) → {vs : List Value} →
    values? ds = some vs → Value.DistinctItems vs
  | [], _, h => by
    obtain rfl := Option.some.inj h
    trivial
  | d :: ds, _, h => by
    obtain ⟨v, hv, h⟩ := Option.bind_eq_some_iff.1 h
    obtain ⟨vs, hvs, h⟩ := Option.bind_eq_some_iff.1 h
    obtain rfl := Option.some.inj h
    exact ⟨distinct_of_value? d hv, distinct_of_values? ds hvs⟩

theorem distinct_of_entryValues? : (ds : List (Option String × Document)) →
    {es : List (String × Value)} → entryValues? ds = some es → Value.DistinctEntries es
  | [], _, h => by
    obtain rfl := Option.some.inj h
    trivial
  | (key, d) :: ds, _, h => by
    obtain ⟨k, hk, h⟩ := Option.bind_eq_some_iff.1 h
    obtain ⟨v, hv, h⟩ := Option.bind_eq_some_iff.1 h
    obtain ⟨es, hes, h⟩ := Option.bind_eq_some_iff.1 h
    obtain rfl := Option.some.inj h
    exact ⟨distinct_of_value? d hv, distinct_of_entryValues? ds hes⟩

end

end Document

/-- **The names of every object that is read are distinct.** -/
theorem Value.distinct_of_read? {text : String} {v : Value} (h : read? text = some v) :
    v.Distinct := by
  obtain ⟨d, -, hv⟩ := Option.bind_eq_some_iff.1 h
  exact d.distinct_of_value? hv

/-- The text that is written for a value is read as that value. -/
def Value.ReadsBack (v : Value) : Prop := read? v.pretty = some v

instance (v : Value) : Decidable v.ReadsBack := inferInstanceAs (Decidable (_ = _))

/-- The text that is written for a value is read as no other value. -/
def Value.NotMisread (v : Value) : Prop := ∀ w, read? v.pretty = some w → w = v

theorem Value.ReadsBack.notMisread {v : Value} (h : v.ReadsBack) : v.NotMisread :=
  fun _ hw => Option.some.inj (hw.symm.trans h)

end Json

end SplitBuild
