import SplitBuild.Text.Edit
import Mathlib.Data.List.Infix
/-!
# Where a pattern begins

A scan of a text asks at every place whether something begins there.
`Nowhere p w rest` says that nothing does at the places of `w`, with
`rest` behind it. It is what lets a scan pass over a stretch of a text
that goes on (`editAll_append_of_nowhere`). For a pattern that does not
stand in `w` there are two reasons why it cannot begin in `w` and end
behind it: the text behind begins with a character the pattern lacks
(`nowhere_of_head`), or with the pattern itself, which does not overlap
itself (`nowhere_of_borderless`).
-/

namespace SplitBuild

namespace Text

/-- `p` holds of the text from no place of `w` on, with `rest` behind `w`. -/
def Nowhere (p : List Char → Prop) : List Char → List Char → Prop
  | [], _ => True
  | c :: w, rest => ¬ p (c :: (w ++ rest)) ∧ Nowhere p w rest

instance Nowhere.instDecidable {p : List Char → Prop} [DecidablePred p] :
    (w rest : List Char) → Decidable (Nowhere p w rest)
  | [], _ => isTrue trivial
  | c :: w, rest =>
    have := Nowhere.instDecidable (p := p) w rest
    inferInstanceAs (Decidable (¬ p (c :: (w ++ rest)) ∧ Nowhere p w rest))

variable {p q : List Char → Prop} {pat u v w rest : List Char}

theorem Nowhere.mono (hpq : ∀ s, q s → p s) (h : Nowhere p w rest) : Nowhere q w rest := by
  induction w with
  | nil => trivial
  | cons c w ih => exact ⟨fun hq => h.1 (hpq _ hq), ih h.2⟩

theorem nowhere_append :
    Nowhere p (u ++ v) rest ↔ Nowhere p u (v ++ rest) ∧ Nowhere p v rest := by
  induction u with
  | nil => simp [Nowhere]
  | cons c u ih =>
    simp only [List.cons_append, Nowhere, ih, List.append_assoc]
    tauto

/-- A pattern begins at no place of a stretch without its first character. -/
theorem nowhere_of_not_mem {c : Char} (h : c ∉ w) : Nowhere (c :: pat <+: ·) w rest := by
  induction w with
  | nil => trivial
  | cons d w ih =>
    refine ⟨fun hp => h ?_, ih fun hc => h (List.mem_cons_of_mem _ hc)⟩
    rw [(List.cons_prefix_cons.1 hp).1]
    exact List.mem_cons_self

/-- A pattern that begins in a stretch it does not stand in goes on into
what follows. -/
theorem exists_overlap (hw : ¬ pat <:+: w) (h : pat <+: w ++ rest) :
    ∃ q, q ≠ [] ∧ pat = w ++ q ∧ q <+: rest := by
  rcases List.prefix_or_prefix_of_prefix h (List.prefix_append w rest) with hp | ⟨q, hq⟩
  · exact absurd hp.isInfix hw
  · refine ⟨q, ?_, hq.symm, ?_⟩
    · rintro rfl
      rw [List.append_nil] at hq
      exact hw (hq ▸ List.infix_refl _)
    · rw [← hq] at h
      exact (List.prefix_append_right_inj w).1 h

/-- **A pattern that does not stand in a stretch does not begin there**,
where what follows begins with a character that it lacks. -/
theorem nowhere_of_head (hw : ¬ pat <:+: w) (hrest : ∀ c ∈ rest.head?, c ∉ pat) :
    Nowhere (pat <+: ·) w rest := by
  induction w with
  | nil => trivial
  | cons c w ih =>
    refine ⟨fun hp => ?_, ih fun h => hw (h.trans (List.suffix_cons c w).isInfix)⟩
    obtain ⟨q, hq, hpat, hqr⟩ := exists_overlap hw hp
    obtain ⟨d, q, rfl⟩ := List.exists_cons_of_ne_nil hq
    obtain ⟨r, rfl⟩ := hqr
    exact hrest d rfl (by simp [hpat])

/-- A pattern of which no end, but for the whole and the empty one, is also
a beginning. -/
def Borderless (pat : List Char) : Prop :=
  ∀ k < pat.length, 0 < k → ¬ pat.drop k <+: pat

instance (pat : List Char) : Decidable (Borderless pat) :=
  inferInstanceAs (Decidable (∀ k < pat.length, 0 < k → ¬ pat.drop k <+: pat))

/-- **A pattern that does not overlap itself does not begin in a stretch
where it does not stand**, where what follows begins with it. -/
theorem nowhere_of_borderless (hpat : Borderless pat) (hw : ¬ pat <:+: w) (hrest : pat <+: rest) :
    Nowhere (pat <+: ·) w rest := by
  induction w with
  | nil => trivial
  | cons c w ih =>
    refine ⟨fun hp => ?_, ih fun h => hw (h.trans (List.suffix_cons c w).isInfix)⟩
    obtain ⟨q, hq, heq, hqr⟩ := exists_overlap hw hp
    have hlen : pat.length = w.length + 1 + q.length := by
      rw [heq, List.length_append, List.length_cons]
    have hpos := List.length_pos_iff.2 hq
    have hdrop : pat.drop (w.length + 1) = q := by
      rw [heq]
      simp
    refine hpat (w.length + 1) (by omega) (by omega) ?_
    rw [hdrop]
    exact List.prefix_of_prefix_length_le hqr hrest (by omega)

/-- A pattern begins nowhere in a stretch where it does not stand and no end
of which is a beginning of it. -/
theorem nowhere_of_ends (hw : ¬ pat <:+: w) (hend : ∀ k < w.length, ¬ w.drop k <+: pat) :
    Nowhere (pat <+: ·) w rest := by
  induction w with
  | nil => trivial
  | cons c w ih =>
    refine ⟨fun hp => ?_, ih (fun h => hw (h.trans (List.suffix_cons c w).isInfix)) ?_⟩
    · obtain ⟨q, -, heq, -⟩ := exists_overlap hw hp
      exact hend 0 (by simp) ⟨q, heq.symm⟩
    · intro k hk
      have := hend (k + 1) (by simp only [List.length_cons]; omega)
      simpa using this

/-- A pattern that begins nowhere in a stretch begins behind it. -/
theorem exists_eq_append_of_nowhere {before after : List Char} (hw : Nowhere (pat <+: ·) w rest)
    (h : w ++ rest = before ++ pat ++ after) :
    ∃ t, before = w ++ t ∧ rest = t ++ pat ++ after := by
  induction w generalizing before with
  | nil => exact ⟨before, rfl, h⟩
  | cons c w ih =>
    cases before with
    | nil =>
      rw [List.cons_append, List.nil_append] at h
      exact absurd ⟨after, h.symm⟩ hw.1
    | cons b before =>
      rw [List.cons_append, List.cons_append, List.cons_append, List.cons.injEq] at h
      obtain ⟨rfl, h⟩ := h
      obtain ⟨t, rfl, ht⟩ := ih hw.2 h
      exact ⟨t, rfl, ht⟩

/-! ## Scans -/

/-- A text that starts with a pattern goes on behind it. -/
@[simp] theorem after?_append (pat rest : List Char) : after? pat (pat ++ rest) = some rest :=
  after?_eq_some_iff.2 rfl

theorem after?_eq_none_iff : after? pat w = none ↔ ¬ pat <+: w := by
  rw [Option.eq_none_iff_forall_ne_some]
  simp only [ne_eq, after?_eq_some_iff, List.IsPrefix, not_exists, eq_comm (a := w)]

/-- A text contains a pattern exactly where the pattern stands in it. -/
theorem contains_iff : contains pat w ↔ pat <:+: w := by
  simp only [contains]
  induction w with
  | nil => cases pat <;> simp [cut?]
  | cons c w ih =>
    rw [cut?, List.infix_cons_iff, ← ih]
    split
    · rename_i after h
      rw [after?_eq_some_iff] at h
      simp [h]
    · rename_i h
      rw [after?_eq_none_iff] at h
      simp [h]

/-- A pattern that begins nowhere in a text does not stand in it. -/
theorem not_infix_of_nowhere (hpat : pat ≠ []) (h : Nowhere (pat <+: ·) w []) : ¬ pat <:+: w := by
  induction w with
  | nil => simpa using hpat
  | cons c w ih =>
    rw [List.infix_cons_iff]
    rintro (hp | hi)
    · exact h.1 (by simpa using hp)
    · exact ih h.2 hi

/-- **Edits pass over a stretch where none begins.** -/
theorem editAll_append_of_nowhere {edit : Edit} (h : Nowhere (fun s => (edit s).isSome) w rest) :
    editAll edit (w ++ rest) = w ++ editAll edit rest := by
  induction w with
  | nil => rfl
  | cons c w ih =>
    rw [List.cons_append, editAll_cons_of_none (by simpa using h.1), ih h.2, List.cons_append]

/-! ## What edits leave out -/

/-- A pattern does not stand across a character that it lacks. -/
theorem not_infix_append_cons {c : Char} (hc : c ∉ pat) (hu : ¬ pat <:+: u) (hv : ¬ pat <:+: v) :
    ¬ pat <:+: u ++ c :: v := by
  have hne : pat ≠ [] := fun hnil => hu (hnil ▸ List.nil_infix)
  refine not_infix_of_nowhere hne (nowhere_append.2 ⟨?_, ?_, ?_⟩)
  · exact nowhere_of_head hu (by simpa using hc)
  · intro h
    obtain ⟨p, ps, rfl⟩ := List.exists_cons_of_ne_nil hne
    exact hc ((List.cons_prefix_cons.1 h).1 ▸ List.mem_cons_self)
  · exact nowhere_of_head hv (by simp)

/-- What an edit puts in leaves a pattern out. It begins and ends with
characters that the pattern lacks, and the pattern stands in it only if it
stands in the text that the edit reads. -/
structure Avoids (edit : Edit) (pat : List Char) : Prop where
  suffix : ∀ {s new rest}, edit s = some (new, rest) → rest <:+ s
  first : ∀ {s new rest}, edit s = some (new, rest) → ∃ c cs, new = c :: cs ∧ c ∉ pat
  last : ∀ {s new rest}, edit s = some (new, rest) → ∃ cs c, new = cs ++ [c] ∧ c ∉ pat
  clean : ∀ {s new rest}, edit s = some (new, rest) → ¬ pat <:+: s → ¬ pat <:+: new

/-- Characters of the pattern at the front of an edited text were there
before. -/
theorem prefix_of_prefix_editAll {edit : Edit} {s : List Char} (hedit : Avoids edit pat)
    (hw : ∀ c ∈ w, c ∈ pat) (h : w <+: editAll edit s) : w <+: s := by
  have hkept : ∀ {c cs}, (∀ {w}, (∀ c ∈ w, c ∈ pat) → w <+: editAll edit cs → w <+: cs) →
      ∀ {w}, (∀ c ∈ w, c ∈ pat) → w <+: c :: editAll edit cs → w <+: c :: cs := by
    intro c cs ih w hw h
    match w with
    | [] => exact List.nil_prefix
    | d :: w =>
      obtain ⟨hd, htl⟩ := List.cons_prefix_cons.1 h
      exact List.cons_prefix_cons.2 ⟨hd, ih (fun x hx => hw x (List.mem_cons_of_mem _ hx)) htl⟩
  fun_induction editAll edit s generalizing w with
  | case1 => exact h
  | case2 c cs new rest hsome hle ih =>
    obtain ⟨d, ds, rfl, hd⟩ := hedit.first hsome
    match w with
    | [] => exact List.nil_prefix
    | e :: w =>
      obtain ⟨rfl, -⟩ := List.cons_prefix_cons.1 h
      exact absurd (hw _ List.mem_cons_self) hd
  | case3 c cs new rest hsome hle ih => exact hkept ih hw h
  | case4 c cs hnone ih => exact hkept ih hw h

/-- **Edits that avoid a pattern do not make it.** -/
theorem not_infix_editAll {edit : Edit} {s : List Char} (hedit : Avoids edit pat)
    (h : ¬ pat <:+: s) : ¬ pat <:+: editAll edit s := by
  have hkept : ∀ {c cs}, editAll edit (c :: cs) = c :: editAll edit cs →
      ¬ pat <:+: c :: cs → (¬ pat <:+: cs → ¬ pat <:+: editAll edit cs) →
      ¬ pat <:+: c :: editAll edit cs := by
    intro c cs heq h ih
    rw [List.infix_cons_iff]
    rintro (hpre | hinfix)
    · exact h (prefix_of_prefix_editAll hedit (fun _ hc => hc) (heq ▸ hpre)).isInfix
    · exact ih (fun hi => h (hi.trans (List.suffix_cons c cs).isInfix)) hinfix
  fun_induction editAll edit s with
  | case1 => exact h
  | case2 c cs new rest hsome hle ih =>
    obtain ⟨ds, d, rfl, hd⟩ := hedit.last hsome
    have hnew := hedit.clean hsome h
    have hrest := ih fun hi => h (hi.trans (hedit.suffix hsome).isInfix)
    rw [List.append_assoc, List.singleton_append]
    exact not_infix_append_cons hd (fun hi => hnew (hi.trans (List.prefix_append _ _).isInfix)) hrest
  | case3 c cs new rest hsome hle ih =>
    exact hkept (by rw [editAll, hsome]; simp only [if_neg hle]) h ih
  | case4 c cs hnone ih => exact hkept (editAll_cons_of_none hnone) h ih

end Text

end SplitBuild
