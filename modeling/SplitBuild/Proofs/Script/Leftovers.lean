import SplitBuild.Proofs.Script.Resolution
/-!
# Scripts that keep a marker

Whatever stands in a script, it is resolved as a whole or not at all. What
the table holds afterwards was resolved and has no marker, or it is as it
was and there is nothing to resolve it to (`after_cases`). So the reports
are on the scripts that still have a marker, and **what is left of a table
is left by a second call, which reports the same**
(`resolveLoads_all_or_nothing`).
-/

namespace SplitBuild

namespace Script

variable {ctx : Context} {assets : AssetTable} {name source : String}

/-- A script of the assets has a marker in its source. -/
structure IsMarked (ctx : Context) (assets : AssetTable) (name source : String) : Prop where
  script : ∃ stem, name = stem ++ ctx.scriptExtension
  held : assets.source? name = some source
  marker : markerStart.toList <:+: source.toList

/-! ## What becomes of a script -/

theorem hasMarker_iff : hasMarker source ↔ markerStart.toList <:+: source.toList :=
  Text.contains_iff

theorem isScript_iff : isScript ctx name ↔ ∃ stem, name = stem ++ ctx.scriptExtension := by
  simp only [isScript, Option.isSome_iff_exists, Path.stem?_eq_some_iff]

/-- What becomes of a script with a marker is decided by what it is resolved
to. -/
theorem IsMarked.outcome_eq (h : IsMarked ctx assets name source) : outcome ctx name source =
    if hasMarker (resolve name ctx.scriptExtension source) then .leftover
    else .resolved (resolve name ctx.scriptExtension source) := by
  have hscript : isScript ctx name = true := isScript_iff.2 h.script
  have hmarker : hasMarker source = true := hasMarker_iff.2 h.marker
  unfold outcome
  rw [hscript, hmarker]
  rfl

/-- Where there is nothing to resolve, nothing becomes of an asset. -/
theorem outcome_of_not_isMarked (hsource : assets.source? name = some source)
    (h : ¬ IsMarked ctx assets name source) : outcome ctx name source = .untouched := by
  by_cases hscript : isScript ctx name
  · have hmarker : ¬ hasMarker source := fun hmarker =>
      h ⟨isScript_iff.1 hscript, hsource, hasMarker_iff.1 hmarker⟩
    exact outcome_of_not_hasMarker hmarker
  · exact outcome_of_not_isScript hscript

theorem isMarked_of_leftover (hsource : assets.source? name = some source)
    (h : outcome ctx name source = .leftover) : IsMarked ctx assets name source := by
  by_contra hunmarked
  rw [outcome_of_not_isMarked hsource hunmarked] at h
  cases h

/-! ## The table afterwards -/

/-- An asset that is not resolved keeps its contents. -/
theorem getElem?_resolveLoads_eq_self
    (h : ∀ source, assets.source? name = some source → ∀ text, outcome ctx name source ≠ .resolved text) :
    (resolveLoads ctx assets).2[name]? = assets[name]? := by
  refine AssetTable.getElem?_rewrite_eq_self fun source hsource => ?_
  refine Option.eq_none_iff_forall_ne_some.2 fun text htext => ?_
  exact h source hsource text (rewritten?_eq_some_iff.1 htext)

theorem getElem?_resolveLoads_of_leftover (hsource : assets.source? name = some source)
    (h : outcome ctx name source = .leftover) :
    (resolveLoads ctx assets).2[name]? = assets[name]? := by
  refine getElem?_resolveLoads_eq_self fun other hother text htext => ?_
  obtain rfl : source = other := Option.some.inj (hsource.symm.trans hother)
  rw [h] at htext
  cases htext

/-- A script is marked afterwards exactly if it was left over. -/
theorem isMarked_resolveLoads_iff : IsMarked ctx (resolveLoads ctx assets).2 name source ↔
    assets.source? name = some source ∧ outcome ctx name source = .leftover := by
  constructor
  · intro h
    rcases after_cases h.held with huntouched | hleftover
    · rw [h.outcome_eq] at huntouched
      split at huntouched
      · cases huntouched
      · cases huntouched
    · exact hleftover
  · rintro ⟨hsource, hleftover⟩
    have hmarked := isMarked_of_leftover hsource hleftover
    have hkept : (resolveLoads ctx assets).2[name]? = assets[name]? :=
      getElem?_resolveLoads_of_leftover hsource hleftover
    exact ⟨hmarked.script, (AssetTable.source?_congr hkept).trans hsource, hmarked.marker⟩

/-! ## The reports -/

/-- A script of the assets is left over. -/
def isLeftover (ctx : Context) (assets : AssetTable) (name : String) : Bool :=
  (assets.source? name).map (outcome ctx name) = some .leftover

theorem isLeftover_iff : isLeftover ctx assets name ↔
    ∃ source, IsMarked ctx (resolveLoads ctx assets).2 name source := by
  simp only [isLeftover, decide_eq_true_iff, Option.map_eq_some_iff, isMarked_resolveLoads_iff]

/-- The reports are on the scripts that are left over, in the order of the
table. -/
theorem leftovers_eq_map (ctx : Context) (assets : AssetTable) : leftovers ctx assets =
    (assets.names.filter (isLeftover ctx assets)).map leftoverMarker := by
  rw [leftovers, ← List.filterMap_eq_filter, List.map_filterMap]
  congr 1
  funext name
  rw [Option.guard, isLeftover]
  cases (assets.source? name).map (outcome ctx name) with
  | none => rfl
  | some outcome => cases outcome <;> rfl

theorem mem_filter_isLeftover_iff : name ∈ assets.names.filter (isLeftover ctx assets) ↔
    ∃ source, IsMarked ctx (resolveLoads ctx assets).2 name source := by
  rw [List.mem_filter, isLeftover_iff, and_iff_right_iff_imp]
  rintro ⟨source, hmarked⟩
  obtain ⟨hsource, -⟩ := isMarked_resolveLoads_iff.1 hmarked
  exact AssetTable.mem_names_iff.2 (AssetTable.mem_of_source? hsource)

/-! ## A second call -/

/-- What is left after a call is left by a second one. -/
theorem resolveLoads_after (ctx : Context) (assets : AssetTable) :
    resolveLoads ctx (resolveLoads ctx assets).2 = resolveLoads ctx assets := by
  have hkept : (resolveLoads ctx assets).2.rewrite (rewritten? ctx) = (resolveLoads ctx assets).2 := by
    refine AssetTable.rewrite_eq_self fun name source hsource => ?_
    refine Option.eq_none_iff_forall_ne_some.2 fun text htext => ?_
    have houtcome := rewritten?_eq_some_iff.1 htext
    rcases after_cases hsource with huntouched | ⟨-, hleftover⟩
    · rw [huntouched] at houtcome
      cases houtcome
    · rw [hleftover] at houtcome
      cases houtcome
  have hreports : leftovers ctx (resolveLoads ctx assets).2 = leftovers ctx assets := by
    have hnames : (resolveLoads ctx assets).2.names = assets.names :=
      AssetTable.names_rewrite assets (rewritten? ctx)
    rw [leftovers_eq_map, leftovers_eq_map, hnames]
    congr 1
    refine List.filter_congr fun name _ => ?_
    rw [Bool.eq_iff_iff, isLeftover_iff, isLeftover_iff]
    -- the table after a second call is the table after the first
    exact iff_of_eq (congrArg (fun table => ∃ source, IsMarked ctx table name source) hkept)
  exact Prod.ext hreports hkept

/-- **A script is resolved as a whole or left as it is and reported.** Every
asset stays that is no script or has no marker. A script with a marker holds
what it is resolved to, where that has none, and otherwise it stays and is
reported. The reports are on the scripts that have a marker afterwards, one
on each in the order of their bytes, so that nothing is reported exactly if
no script has a marker. A second call changes nothing and reports the
same. -/
theorem resolveLoads_all_or_nothing (ctx : Context) (assets : AssetTable) :
    (resolveLoads ctx assets).2.names = assets.names ∧
    (∀ name, (∀ source, ¬ IsMarked ctx assets name source) →
      (resolveLoads ctx assets).2[name]? = assets[name]?) ∧
    (∀ name source, IsMarked ctx assets name source →
      ¬ markerStart.toList <:+: (resolve name ctx.scriptExtension source).toList ∧
        (resolveLoads ctx assets).2[name]? =
          some (resolve name ctx.scriptExtension source).toUTF8 ∧
        (∀ d ∈ (resolveLoads ctx assets).1, name ∉ d.subjects) ∨
      markerStart.toList <:+: (resolve name ctx.scriptExtension source).toList ∧
        (resolveLoads ctx assets).2[name]? = assets[name]? ∧
        leftoverMarker name ∈ (resolveLoads ctx assets).1) ∧
    (∃ names : List String, names.Pairwise (fun m n => Text.bytes m < Text.bytes n) ∧
      (∀ name, name ∈ names ↔ ∃ source, IsMarked ctx (resolveLoads ctx assets).2 name source) ∧
      (resolveLoads ctx assets).1 = names.map leftoverMarker) ∧
    ((resolveLoads ctx assets).1 = [] ↔
      ∀ name source, ¬ IsMarked ctx (resolveLoads ctx assets).2 name source) ∧
    resolveLoads ctx (resolveLoads ctx assets).2 = resolveLoads ctx assets := by
  refine ⟨AssetTable.names_rewrite assets (rewritten? ctx), fun name hunmarked => ?_,
    fun name source hmarked => ?_, ?_, ?_, resolveLoads_after ctx assets⟩
  · refine getElem?_resolveLoads_eq_self fun source hsource text htext => ?_
    rw [outcome_of_not_isMarked hsource (hunmarked source)] at htext
    cases htext
  · have houtcome := hmarked.outcome_eq
    by_cases hleft : hasMarker (resolve name ctx.scriptExtension source)
    · rw [if_pos hleft] at houtcome
      exact .inr ⟨hasMarker_iff.1 hleft, getElem?_resolveLoads_of_leftover hmarked.held houtcome,
        mem_leftovers_iff.2 ⟨name, source, hmarked.held, houtcome, rfl⟩⟩
    · rw [if_neg hleft] at houtcome
      refine .inl ⟨mt hasMarker_iff.2 hleft, ?_, not_mem_subjects_of_resolved hmarked.held houtcome⟩
      rw [getElem?_resolveLoads hmarked.held, rewritten?_eq_some_iff.2 houtcome, Option.map_some,
        Option.some_or]
  · exact ⟨assets.names.filter (isLeftover ctx assets), (AssetTable.names_pairwise assets).filter _,
      fun name => mem_filter_isLeftover_iff, leftovers_eq_map ctx assets⟩
  · have hnone : (resolveLoads ctx assets).1 = [] ↔
        assets.names.filter (isLeftover ctx assets) = [] := by
      rw [resolveLoads, leftovers_eq_map]
      exact List.map_eq_nil_iff
    rw [hnone, List.eq_nil_iff_forall_not_mem]
    simp only [mem_filter_isLeftover_iff, not_exists]

/-- Two scripts with a marker: a call that can be read, and one without a
bundle to load. -/
def brokenCall : AssetTable :=
  .ofList [("a.js", "__subpack_require_async__(\"x\")".toUTF8),
    ("b.js", "__subpack_require_async__(x)".toUTF8)]

/-- The first is resolved, and the second stays and is reported. -/
theorem brokenCall_left :
    IsMarked .default brokenCall "a.js" "__subpack_require_async__(\"x\")" ∧
      IsMarked .default brokenCall "b.js" "__subpack_require_async__(x)" ∧
      (resolveLoads .default brokenCall).2["a.js"]? = some "require.async(\"x.js\")".toUTF8 ∧
      (resolveLoads .default brokenCall).2["b.js"]? = brokenCall["b.js"]? ∧
      leftoverMarker "b.js" ∈ (resolveLoads .default brokenCall).1 := by
  have hcall : IsMarked .default brokenCall "a.js" "__subpack_require_async__(\"x\")" :=
    ⟨⟨"a", by decide⟩, by decide +kernel, by decide⟩
  have hbroken : IsMarked .default brokenCall "b.js" "__subpack_require_async__(x)" :=
    ⟨⟨"b", by decide⟩, by decide +kernel, by decide⟩
  obtain ⟨-, -, hscripts, -⟩ := resolveLoads_all_or_nothing .default brokenCall
  refine ⟨hcall, hbroken, ?_⟩
  rcases hscripts _ _ hcall with ⟨-, hresolved, -⟩ | ⟨hmarker, -⟩
  · rcases hscripts _ _ hbroken with ⟨hclean, -⟩ | ⟨-, hleft⟩
    · exact absurd (by decide +kernel) hclean
    · have htext : resolve "a.js" Context.default.scriptExtension
          "__subpack_require_async__(\"x\")" = "require.async(\"x.js\")" := by decide +kernel
      rw [htext] at hresolved
      exact ⟨hresolved, hleft⟩
  · exact absurd hmarker (by decide +kernel)

end Script

end SplitBuild
