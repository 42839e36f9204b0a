import SplitBuild.Proofs.Manifest.Contents
/-!
# Placeholders that a component may have

A placeholder names a component in use of its own package or of the main
one, which was emitted, or a tag that every page may use. `Bad` says what
else it can be, one constructor for each kind of report. A tag that is in
use is judged as the component it names, also where it is a global one. A
merge that changes a manifest **reports every bad placeholder of the merged
manifest, once and in order, and fails exactly if there is one**
(`merge_error_iff_bad`).
-/

namespace SplitBuild

open Json

variable {ctx : Context}

theorem Context.isGlobalTag_iff {tag : String} :
    ctx.isGlobalTag tag ↔ tag ∈ Tag.builtin ∨ tag ∈ ctx.globalTags := by
  simp [isGlobalTag, Tag.isBuiltin]

namespace ComponentManifest

variable {component key source tag path : String} {fragment : Fragment} {emitted : String → Bool}
variable {manifest result entries : Object} {kind : Diagnostic.Kind}

/-! ## Texts under distinct names -/

theorem keys_texts_sublist (entries : Object) :
    (Keyed.keys (Object.texts entries)).Sublist (Keyed.keys entries) := by
  induction entries with
  | nil => exact .slnil
  | cons e es ih =>
    rw [Object.texts, List.filterMap_cons]
    cases e.2.string? with
    | none => exact ih.cons _
    | some s => exact ih.cons_cons _

/-- Where names are distinct, the text under a name is the string there. -/
theorem get?_textsAt_iff (hnodup : (Keyed.keys (inner manifest key)).Nodup) :
    (manifest.textsAt key).get? tag = some path ↔
      (inner manifest key).get? tag = some (.string path) := by
  have htexts : (Keyed.keys (manifest.textsAt key)).Nodup := by
    rw [textsAt_eq]
    exact (keys_texts_sublist _).nodup hnodup
  constructor
  · intro h
    exact Keyed.get?_of_mem hnodup (mem_textsAt_iff.1 (Keyed.mem_of_get? h))
  · intro h
    exact Keyed.get?_of_mem htexts (mem_textsAt_iff.2 (Keyed.mem_of_get? h))

/-! ## Bad placeholders -/

/-- What is wrong with a placeholder tag in the manifest of a component. -/
inductive Bad (ctx : Context) (component : String) (emitted : String → Bool) (manifest : Object)
    (tag : String) : Diagnostic.Kind → Prop
  /-- The tag is neither in use nor global. -/
  | unknown : (∀ path, (inner manifest usingComponents).get? tag ≠ some (.string path)) →
      tag ∉ Tag.builtin → tag ∉ ctx.globalTags →
      Bad ctx component emitted manifest tag .invalidPlaceholder
  /-- The tag names a component of another subpackage. -/
  | elsewhere {path : String} : (inner manifest usingComponents).get? tag = some (.string path) →
      LiesElsewhere ctx component path →
      Bad ctx component emitted manifest tag .crossSubpackagePlaceholder
  /-- The tag names a component that was not emitted. -/
  | missing {path : String} : (inner manifest usingComponents).get? tag = some (.string path) →
      ¬ LiesElsewhere ctx component path → emitted (target component path) = false →
      Bad ctx component emitted manifest tag .missingPlaceholderTarget

/-- A tag that may stand for a component: a global one, or that of an emitted
component in use, of the main package or the same one. -/
def MayStand (ctx : Context) (component : String) (emitted : String → Bool) (manifest : Object)
    (tag : String) : Prop :=
  (tag ∈ Tag.builtin ∨ tag ∈ ctx.globalTags) ∨
    ∃ path, (inner manifest usingComponents).get? tag = some (.string path) ∧
      emitted (target component path) ∧
      (ctx.classify (target component path) = .main ∨
        ctx.classify (target component path) = ctx.classify component)

theorem not_liesElsewhere_iff : ¬ LiesElsewhere ctx component path ↔
    ctx.classify (target component path) = .main ∨
      ctx.classify (target component path) = ctx.classify component := by
  unfold LiesElsewhere
  cases ctx.classify (target component path) with
  | main => simp
  | subpackage root => simp [eq_comm]

theorem mayStand_of_not_bad (h : ∀ kind, ¬ Bad ctx component emitted manifest tag kind) :
    MayStand ctx component emitted manifest tag := by
  -- each kind that is excluded gives one part of what a tag has to be
  by_cases hused : ∃ path, (inner manifest usingComponents).get? tag = some (.string path)
  · obtain ⟨path, hpath⟩ := hused
    have hhere : ¬ LiesElsewhere ctx component path := fun he => h _ (.elsewhere hpath he)
    have hemitted : emitted (target component path) := by
      by_contra hgone
      exact h _ (.missing hpath hhere (Bool.eq_false_iff.2 hgone))
    exact .inr ⟨path, hpath, hemitted, not_liesElsewhere_iff.1 hhere⟩
  · by_contra hglobal
    obtain ⟨hbuiltin, hdeclared⟩ := not_or.1 fun hg => hglobal (.inl hg)
    exact h _ (.unknown (not_exists.1 hused) hbuiltin hdeclared)

theorem flaw?_of_unused (h : (manifest.textsAt usingComponents).get? tag = none) :
    flaw? ctx component emitted (manifest.textsAt usingComponents) tag =
      if ctx.isGlobalTag tag then none else some .invalid := by
  rw [flaw?, h]

theorem flaw?_of_used (h : (manifest.textsAt usingComponents).get? tag = some path) :
    flaw? ctx component emitted (manifest.textsAt usingComponents) tag =
      if crosses ctx component (target component path) then some .crossSubpackage
      else if emitted (target component path) then none else some .missingTarget := by
  rw [flaw?, h]

/-- What is wrong with a tag is found. -/
theorem flaw?_of_bad (hnodup : (Keyed.keys (inner manifest usingComponents)).Nodup)
    (h : Bad ctx component emitted manifest tag kind) :
    ∃ flaw, flaw? ctx component emitted (manifest.textsAt usingComponents) tag = some flaw ∧
      flaw.kind = kind := by
  cases h with
  | unknown hunused hbuiltin hdeclared =>
    have hnone : (manifest.textsAt usingComponents).get? tag = none :=
      Option.eq_none_iff_forall_ne_some.2 fun path hpath =>
        hunused path ((get?_textsAt_iff hnodup).1 hpath)
    have hglobal : ¬ ctx.isGlobalTag tag := by
      rw [Context.isGlobalTag_iff, not_or]
      exact ⟨hbuiltin, hdeclared⟩
    rw [flaw?_of_unused hnone, if_neg hglobal]
    exact ⟨.invalid, rfl, rfl⟩
  | elsewhere hpath helsewhere =>
    rw [flaw?_of_used ((get?_textsAt_iff hnodup).2 hpath), if_pos (crosses_iff.2 helsewhere)]
    exact ⟨.crossSubpackage, rfl, rfl⟩
  | missing hpath hhere hgone =>
    rw [flaw?_of_used ((get?_textsAt_iff hnodup).2 hpath), if_neg (crosses_iff.not.2 hhere),
      if_neg (Bool.eq_false_iff.1 hgone)]
    exact ⟨.missingTarget, rfl, rfl⟩

/-- What is found is wrong with a tag. -/
theorem bad_of_flaw? (hnodup : (Keyed.keys (inner manifest usingComponents)).Nodup) {flaw : Flaw}
    (h : flaw? ctx component emitted (manifest.textsAt usingComponents) tag = some flaw) :
    Bad ctx component emitted manifest tag flaw.kind := by
  cases hused : (manifest.textsAt usingComponents).get? tag with
  | none =>
    rw [flaw?_of_unused hused, Option.ite_none_left_eq_some] at h
    obtain ⟨hglobal, hflaw⟩ := h
    obtain rfl := Option.some.inj hflaw
    rw [Context.isGlobalTag_iff, not_or] at hglobal
    refine .unknown (fun path hpath => ?_) hglobal.1 hglobal.2
    rw [(get?_textsAt_iff hnodup).2 hpath] at hused
    cases hused
  | some path =>
    have hpath := (get?_textsAt_iff hnodup).1 hused
    rw [flaw?_of_used hused] at h
    split at h
    · rename_i hcross
      obtain rfl := Option.some.inj h
      exact .elsewhere hpath (crosses_iff.1 hcross)
    · rename_i hcross
      rw [Option.ite_none_left_eq_some] at h
      obtain ⟨hgone, hflaw⟩ := h
      obtain rfl := Option.some.inj hflaw
      exact .missing hpath (crosses_iff.not.1 hcross) (Bool.eq_false_iff.2 hgone)

/-! ## Reports -/

open scoped Classical in
/-- Of some placeholders those that are bad, in order. -/
noncomputable def badOnes (ctx : Context) (component : String) (emitted : String → Bool)
    (manifest : Object) (placeholders : Keyed String) : Keyed String :=
  placeholders.filter fun e => ∃ kind, Bad ctx component emitted manifest e.2 kind

/-- A report is about a placeholder: it says what is wrong with it, and
where it stands. -/
def Reports (ctx : Context) (component : String) (emitted : String → Bool) (manifest : Object)
    (e : String × String) (d : Diagnostic) : Prop :=
  Bad ctx component emitted manifest e.2 d.kind ∧ d.subjects = [component, e.1]

/-- **Each bad placeholder is reported once, in order, and no other.** -/
theorem forall₂_reports (hnodup : (Keyed.keys (inner manifest usingComponents)).Nodup)
    (placeholders : Keyed String) :
    List.Forall₂ (Reports ctx component emitted manifest)
      (badOnes ctx component emitted manifest placeholders)
      (placeholders.filterMap fun e =>
        (flaw? ctx component emitted (manifest.textsAt usingComponents) e.2).map
          (flawed component e.1 e.2)) := by
  induction placeholders with
  | nil => exact .nil
  | cons e es ih =>
    rw [List.filterMap_cons, badOnes]
    -- the filter keeps an entry exactly where the check reports it
    cases hflaw : flaw? ctx component emitted (manifest.textsAt usingComponents) e.2 with
    | none =>
      have hgood : ¬ ∃ kind, Bad ctx component emitted manifest e.2 kind := by
        rintro ⟨kind, hbad⟩
        obtain ⟨flaw, hsome, -⟩ := flaw?_of_bad hnodup hbad
        rw [hflaw] at hsome
        cases hsome
      rw [List.filter_cons_of_neg (by simpa using hgood)]
      exact ih
    | some flaw =>
      have hbad := bad_of_flaw? hnodup hflaw
      rw [List.filter_cons_of_pos (by simpa using ⟨_, hbad⟩)]
      exact .cons ⟨hbad, rfl⟩ ih

theorem mem_badOnes_iff {placeholders : Keyed String} {e : String × String} :
    e ∈ badOnes ctx component emitted manifest placeholders ↔
      e ∈ placeholders ∧ ∃ kind, Bad ctx component emitted manifest e.2 kind := by
  simp [badOnes]

theorem forall₂_check (hnodup : (Keyed.keys (inner manifest usingComponents)).Nodup) :
    List.Forall₂ (Reports ctx component emitted manifest)
      (badOnes ctx component emitted manifest (manifest.textsAt componentPlaceholder))
      (check ctx component emitted manifest) :=
  forall₂_reports hnodup _

/-- Nothing is reported exactly if no placeholder is bad. -/
theorem check_eq_nil_iff (hnodup : (Keyed.keys (inner manifest usingComponents)).Nodup) :
    check ctx component emitted manifest = [] ↔
      ∀ k tag, (k, .string tag) ∈ inner manifest componentPlaceholder →
        ∀ kind, ¬ Bad ctx component emitted manifest tag kind := by
  have hlen :
      (badOnes ctx component emitted manifest (manifest.textsAt componentPlaceholder)).length =
        (check ctx component emitted manifest).length := (forall₂_check hnodup).length_eq
  rw [← List.length_eq_zero_iff, ← hlen, List.length_eq_zero_iff, List.eq_nil_iff_forall_not_mem]
  simp only [mem_badOnes_iff, Prod.forall, mem_textsAt_iff, not_and, not_exists]

/-! ## The merge -/

/-- **Placeholders are checked.** A merge that changes a manifest fails
exactly if a placeholder of the merged manifest is bad, and then it reports
each bad one once and in order. What it writes has placeholders that may
stand for a component, and no others. -/
theorem merge_error_iff_bad (hsource : Value.read? source = some (.object manifest))
    (hresult : merged ctx component fragment manifest = result) (hchanged : result ≠ manifest) :
    ((∃ ds, merge ctx component source fragment emitted = .error ds) ↔
      ∃ k tag kind, (k, .string tag) ∈ inner result componentPlaceholder ∧
        Bad ctx component emitted result tag kind) ∧
    (∀ ds, merge ctx component source fragment emitted = .error ds →
      List.Forall₂ (Reports ctx component emitted result)
        (badOnes ctx component emitted result (result.textsAt componentPlaceholder)) ds) ∧
    ∀ text, merge ctx component source fragment emitted = .ok (some text) →
      text = (Value.object result).pretty ∧
        ∀ k tag, (k, .string tag) ∈ inner result componentPlaceholder →
          MayStand ctx component emitted result tag := by
  have hread : read component source = .ok manifest := read_eq_ok_iff.2 hsource
  have hnodup : (Keyed.keys (inner result usingComponents)).Nodup :=
    hresult ▸ nodup_keys_merged (nodup_keys_inner hsource)
  -- the manifest changes, so what the check finds decides
  have hfails : ∀ ds, merge ctx component source fragment emitted = .error ds ↔
      check ctx component emitted result = ds ∧ ds ≠ [] := by
    intro ds
    rw [merge_eq_error_iff hread, mergeObject_eq_error_iff, hresult]
    exact and_iff_right hchanged
  refine ⟨?_, fun ds hds => ?_, fun text htext => ?_⟩
  · simp only [hfails]
    rw [exists_eq_left', ne_eq, check_eq_nil_iff hnodup]
    simp only [not_forall, not_not, exists_prop, exists_and_left]
  · obtain ⟨rfl, -⟩ := (hfails ds).1 hds
    exact forall₂_check hnodup
  · obtain ⟨written, hwritten, rfl⟩ := (merge_eq_some_iff hread).1 htext
    obtain ⟨hmerged, -, hcheck⟩ := mergeObject_eq_some_iff.1 hwritten
    obtain rfl : result = written := hresult.symm.trans hmerged
    refine ⟨rfl, fun k tag hmem => mayStand_of_not_bad ?_⟩
    exact (check_eq_nil_iff hnodup).1 hcheck k tag hmem

/-! A page of `subA` whose fragment names a chart of `subB` as a placeholder,
under a tag that is declared for every page. -/

/-- The tag of the chart is a global one. -/
def withGlobalChart : Context := { twoSubpackages with globalTags := ["chart"] }

/-- The fragment that brings the chart in and names it. -/
def namedChart : Fragment where
  usingComponents := [("chart", "/subB/chart")]
  componentPlaceholder := [("map", "chart")]

/-- The manifest of the page after the merge. -/
def namedChartObject : Object :=
  [("usingComponents", .object [("chart", .string "/subB/chart")]),
    ("componentPlaceholder", .object [("map", .string "chart")])]

/-- The tag counts as the component of `subB`, and the merge fails. -/
theorem global_chart_reported :
    Bad withGlobalChart "subA/page" (fun _ => true) namedChartObject "chart"
        .crossSubpackagePlaceholder ∧
      ∃ ds, merge withGlobalChart "subA/page" "\x7b\x7d" namedChart (fun _ => true) = .error ds := by
  have hsource : Value.read? "\x7b\x7d" = some (.object []) := by decide +kernel
  have hresult : merged withGlobalChart "subA/page" namedChart [] = namedChartObject := by decide
  have hused : (inner namedChartObject usingComponents).get? "chart" =
      some (.string "/subB/chart") := by
    decide
  have hbad : Bad withGlobalChart "subA/page" (fun _ => true) namedChartObject "chart"
      .crossSubpackagePlaceholder :=
    .elsewhere hused ⟨"subB", by decide, by decide⟩
  exact ⟨hbad, (merge_error_iff_bad hsource hresult (by decide)).1.2
    ⟨"map", "chart", _, by decide, hbad⟩⟩

end ComponentManifest

end SplitBuild
