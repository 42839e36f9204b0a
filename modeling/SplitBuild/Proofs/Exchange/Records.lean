import SplitBuild.Bundle
import SplitBuild.Manifest.Fragment
import SplitBuild.Module
import SplitBuild.Proofs.Json.Record
/-!
# Exchanged records

A type is exchanged by the value that is written for it and by what is
read of a document (`Exchange`). A value is restored (`Exchange.Restores`)
if either text that is written for it is read as that value, and written
again as that text. Since every value that fits a document is read back as
one (`Layout.read?_text_of_fits`), it suffices that the document of what
is written is read as the value (`Exchange.restores_of_fits`).

Modules, bundles and diagnostics are restored, whatever their fields hold,
and so is a fragment in which no tag repeats, as in every fragment that was
read.
-/

namespace SplitBuild

open Json

/-! ## Restoring -/

/-- How the values of a type are written and read as JSON. -/
structure Exchange (α : Type) where
  value : α → Value
  ofDocument? : Document → Option α

namespace Exchange

variable {α : Type} {x : Exchange α} {a : α}

/-- What a text is read as. -/
def read? (x : Exchange α) (text : String) : Option α := (Document.read? text).bind x.ofDocument?

/-- The texts that are written for a value. -/
def layouts : List (Value → String) := [Value.compact, Value.pretty]

/-- **What is written is read back**: in either layout the text of the
value is read as an equal one, for which the same text is written again. -/
def Restores (x : Exchange α) (a : α) : Prop :=
  ∀ layout ∈ layouts,
    ∃ b, x.read? (layout (x.value a)) = some b ∧ b = a ∧ layout (x.value b) = layout (x.value a)

/-- A value that is written is read of its document. -/
theorem read?_written (x : Exchange α) {v : Value} (hfits : v.Fits Document.maxDepth) :
    ∀ layout ∈ layouts, x.read? (layout v) = x.ofDocument? (.ofValue v) := by
  intro layout hlayout
  have htext : ∃ l : Layout, layout v = l.text v := by
    simp only [layouts, List.mem_cons, List.not_mem_nil, or_false] at hlayout
    rcases hlayout with rfl | rfl
    · exact ⟨_, (Layout.text_compact v).symm⟩
    · exact ⟨_, (Layout.text_pretty v).symm⟩
  obtain ⟨l, hl⟩ := htext
  rw [read?, hl, l.read?_text_of_fits hfits, Option.bind_some]

/-- A value is restored if it is read of its document. -/
theorem restores_of_fits (hread : x.ofDocument? (.ofValue (x.value a)) = some a)
    (hfits : (x.value a).Fits Document.maxDepth) : x.Restores a :=
  fun layout hlayout => ⟨a, (x.read?_written hfits layout hlayout).trans hread, rfl, rfl⟩

end Exchange

/-! ## Modules -/

namespace Reference

theorem ofDocument?_value (r : Reference) : ofDocument? (.ofValue r.value) = some r := by
  rw [ofDocument?, value, Record.ofDocument?_object]
  · simp [Record.required_ofObject, Record.optional_ofObject, Keyed.get?,
      ReferenceKind.get?_named]
  · rfl
  · decide

theorem fits_value (r : Reference) : r.value.Fits 1 := by simp [value]

end Reference

namespace Consumer

theorem ofDocument?_value (c : Consumer) : ofDocument? (.ofValue c.value) = some c := by
  rw [ofDocument?, value, Record.ofDocument?_object]
  · simp [Record.optional_ofObject, Keyed.get?]
  · rfl
  · decide

theorem fits_value (c : Consumer) : c.value.Fits 1 := by simp [value]

end Consumer

namespace Module

/-- How modules are exchanged. -/
def exchange : Exchange Module := ⟨value, ofDocument?⟩

theorem ofDocument?_value (m : Module) : ofDocument? (.ofValue m.value) = some m := by
  have hreferences := Document.list?_ofValue fun r (_ : r ∈ m.references) => r.ofDocument?_value
  have hconsumers := Document.list?_ofValue fun c (_ : c ∈ m.consumers) => c.ofDocument?_value
  rw [ofDocument?, value, Record.ofDocument?_object]
  · simp [Record.required_ofObject, Record.optional_ofObject, Keyed.get?, Kind.get?_named,
      hreferences, hconsumers]
  · rfl
  · decide

theorem fits_value (m : Module) : m.value.Fits 3 := by
  simp [value, Reference.fits_value, Consumer.fits_value]

/-- **Every module is restored.** -/
theorem restores (m : Module) : exchange.Restores m :=
  Exchange.restores_of_fits m.ofDocument?_value (m.fits_value.mono (by decide))

end Module

/-! ## Bundles and diagnostics -/

namespace Bundle

/-- How bundles are exchanged. -/
def exchange : Exchange Bundle := ⟨value, ofDocument?⟩

theorem ofDocument?_value (b : Bundle) : ofDocument? (.ofValue b.value) = some b := by
  rw [ofDocument?, value, Record.ofDocument?_object]
  · simp [Record.required_ofObject, Record.optional_ofObject, Keyed.get?]
  · rfl
  · decide

/-- **Every bundle is restored.** -/
theorem restores (b : Bundle) : exchange.Restores b := by
  have hfits : b.value.Fits 2 := by simp [value]
  exact Exchange.restores_of_fits b.ofDocument?_value (hfits.mono (by decide))

end Bundle

namespace Diagnostic

/-- How diagnostics are exchanged. -/
def exchange : Exchange Diagnostic := ⟨value, ofDocument?⟩

theorem ofDocument?_value (d : Diagnostic) : ofDocument? (.ofValue d.value) = some d := by
  rw [ofDocument?, value, Record.ofDocument?_object]
  · simp [Record.required_ofObject, Record.optional_ofObject, Keyed.get?, Kind.ofDocument?,
      Kind.get?_named]
  · rfl
  · decide

/-- **Every diagnostic is restored.** -/
theorem restores (d : Diagnostic) : exchange.Restores d := by
  have hfits : d.value.Fits 2 := by simp [value]
  exact Exchange.restores_of_fits d.ofDocument?_value (hfits.mono (by decide))

end Diagnostic

/-! ## Fragments -/

namespace Fragment

/-- How fragments are exchanged. -/
def exchange : Exchange Fragment := ⟨value, ofDocument?⟩

/-- No tag of a fragment repeats. -/
structure TagsOnce (f : Fragment) : Prop where
  used : (Keyed.keys f.usingComponents).Nodup
  placeholders : (Keyed.keys f.componentPlaceholder).Nodup

/-- No tag of a fragment that is read repeats. -/
theorem tagsOnce_of_ofDocument? {doc : Document} {f : Fragment} (h : ofDocument? doc = some f) :
    f.TagsOnce := by
  obtain ⟨fields, -, h⟩ := Option.bind_eq_some_iff.1 h
  obtain ⟨used, hused, h⟩ := Option.bind_eq_some_iff.1 h
  obtain ⟨placeholders, hplaceholders, h⟩ := Option.bind_eq_some_iff.1 h
  obtain rfl := Option.some.inj h
  have hnodup {k : String} {texts : Keyed String}
      (h : fields.optional k [] (Document.entries? Document.string?) = some texts) :
      (Keyed.keys texts).Nodup := by
    rcases Record.optional_eq_some_iff.1 h with ⟨-, rfl⟩ | ⟨d, -, hd⟩
    · exact List.nodup_nil
    · exact Document.nodup_keys_of_entries? hd
  exact ⟨hnodup hused, hnodup hplaceholders⟩

theorem ofDocument?_value {f : Fragment} (h : f.TagsOnce) :
    ofDocument? (.ofValue f.value) = some f := by
  rw [ofDocument?, value, Record.ofDocument?_object]
  · simp [Record.optional_ofObject, Keyed.get?, Document.entries?_ofTexts h.used,
      Document.entries?_ofTexts h.placeholders]
  · rfl
  · decide

/-- **A fragment that is read is restored.** -/
theorem restores_of_read? {text : String} {f : Fragment} (h : exchange.read? text = some f) :
    exchange.Restores f := by
  obtain ⟨doc, -, hdoc⟩ := Option.bind_eq_some_iff.1 h
  have hfits : f.value.Fits 2 := by simp [value]
  exact Exchange.restores_of_fits (ofDocument?_value (tagsOnce_of_ofDocument? hdoc))
    (hfits.mono (by decide))

end Fragment

end SplitBuild
