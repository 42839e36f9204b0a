import SplitBuild.Script.Loads
import SplitBuild.Proofs.AssetTable
import SplitBuild.Proofs.Script.Scan
/-!
# What the host gets

The output of a script holds no marker, and a script that is not intact
keeps one when it is scanned. What becomes of the asset follows: **an
intact script is replaced by its output and not reported, and any other
stays as it is and is reported** (`output_if_intact_else_reported`).
-/

namespace SplitBuild

namespace Script

variable {asset name : String} {w : List Char} {items : List Item}

/-! ## Assets -/

/-- **The output of a script has no marker.** -/
theorem unmarked_output (hapart : Apart Item.isText items) :
    Unmarked (output asset ".js" items) := by
  have hnowhere : Text.Nowhere (markerStart.toList <+: ·) (output asset ".js" items) [] := by
    induction items with
    | nil => trivial
    | cons i items ih =>
      rw [output_cons, Text.nowhere_append]
      refine ⟨?_, ih hapart.tail⟩
      match i, hapart with
      | .region _, _ =>
        have hbraces : '_' ∉ ['{', '}'] := by decide
        exact nowhere_of_underscore_not_mem hbraces
      | .piece (.load l), _ => exact l.nowhere_resolved
      | .piece (.text _ hchars), hapart =>
        -- what comes out behind a text begins with a load of the host or a brace
        refine hchars.nowhere_of_stops ?_
        match items, hapart.of_text with
        | [], _ => exact stops_nil
        | .piece (.load l) :: items, _ =>
          rw [output_cons, List.append_assoc]
          exact l.stops_resolved
        | .region _ :: items, _ => exact stops_cons (by decide)
        | .piece (.text _ _) :: items, h => exact Bool.noConfusion (h _ rfl)
  have hne : markerStart.toList ≠ [] := by decide
  exact Text.not_infix_of_nowhere hne hnowhere

/-- A script with a load call or a region has a marker. -/
theorem marked_source (h : ∃ i ∈ items, i.isText = false) :
    markerStart.toList <:+: source items := by
  obtain ⟨i, hi, htext⟩ := h
  obtain ⟨before, after, rfl⟩ := List.append_of_mem hi
  have hitem : markerStart.toList <:+: i.source := by
    match i, htext with
    | .piece (.load l), _ =>
      have hhead := l.head_source []
      rw [List.append_nil] at hhead
      exact (markerStart_isPrefix_head.trans hhead).isInfix
    | .region r, _ =>
      have hstart : markerStart.toList <+: removeBegin.toList := by decide
      refine hstart.isInfix.trans ⟨'{' :: r.lead, r.inside, ?_⟩
      simp [Item.source, DeadRegion.source]
  rw [source, List.flatMap_append, List.flatMap_cons]
  exact hitem.trans ⟨_, _, List.append_assoc _ _ _⟩

theorem hasMarker_ofList {w : List Char} :
    hasMarker (String.ofList w) ↔ markerStart.toList <:+: w := by
  rw [hasMarker, String.toList_ofList, Text.contains_iff]

/-- What becomes of a script is decided by the scan of its source. -/
theorem outcome_eq {ctx : Context} (hext : ctx.scriptExtension = ".js")
    (hname : ∃ stem, name = stem ++ ".js") (hw : markerStart.toList <:+: w) :
    outcome ctx name (String.ofList w) =
      if hasMarker (String.ofList (scan name w)) then .leftover
      else .resolved (String.ofList (scan name w)) := by
  obtain ⟨stem, hstem⟩ := hname
  have hscript : isScript ctx name = true := by
    rw [isScript, hext, Path.stem?_eq_some_iff.2 hstem]
    rfl
  rw [outcome, hscript, hasMarker_ofList.2 hw, hext, resolve, String.toList_ofList]
  rfl

theorem outcome_of_intact {ctx : Context} (hext : ctx.scriptExtension = ".js")
    (hname : ∃ stem, name = stem ++ ".js") (hapart : Apart Item.isText items)
    (hmarked : ∃ i ∈ items, i.isText = false) (h : Intact items) :
    outcome ctx name (String.ofList (source items)) =
      .resolved (String.ofList (output name ".js" items)) := by
  have hclean : ¬ hasMarker (String.ofList (output name ".js" items)) := fun hmarker =>
    unmarked_output hapart (hasMarker_ofList.1 hmarker)
  rw [outcome_eq hext hname (marked_source hmarked), scan_source hapart h, if_neg hclean]

theorem outcome_of_not_intact {ctx : Context} (hext : ctx.scriptExtension = ".js")
    (hname : ∃ stem, name = stem ++ ".js") (hapart : Apart Item.isText items)
    (hmarked : ∃ i ∈ items, i.isText = false) (h : ¬ Intact items) :
    outcome ctx name (String.ofList (source items)) = .leftover := by
  have hleft := hasMarker_ofList.2 (marked_scan_of_not_intact name hapart h)
  rw [outcome_eq hext hname (marked_source hmarked), if_pos hleft]

theorem outcome_of_not_hasMarker {ctx : Context} {text : String} (h : ¬ hasMarker text) :
    outcome ctx name text = .untouched :=
  if_neg fun hmarker => h (Bool.and_eq_true_iff.1 hmarker).2

theorem outcome_of_not_isScript {ctx : Context} {text : String} (h : ¬ isScript ctx name) :
    outcome ctx name text = .untouched :=
  if_neg fun hscript => h (Bool.and_eq_true_iff.1 hscript).1

/-- The new text of a script is its source, resolved, and has no marker. -/
theorem of_outcome_resolved {ctx : Context} {source text : String}
    (h : outcome ctx name source = .resolved text) :
    isScript ctx name ∧ text = resolve name ctx.scriptExtension source ∧ ¬ hasMarker text := by
  rw [outcome] at h
  by_cases hscript : isScript ctx name && hasMarker source
  · rw [if_pos hscript] at h
    by_cases hclean : hasMarker (resolve name ctx.scriptExtension source)
    · simp only [hclean, if_true] at h
      cases h
    · simp only [hclean] at h
      obtain rfl := Outcome.resolved.inj h
      exact ⟨(Bool.and_eq_true_iff.1 hscript).1, rfl, hclean⟩
  · rw [if_neg hscript] at h
    cases h

theorem rewritten?_eq_some_iff {ctx : Context} {source text : String} :
    rewritten? ctx name source = some text ↔ outcome ctx name source = .resolved text := by
  rw [rewritten?]
  cases outcome ctx name source with
  | resolved new => simp
  | untouched => simp
  | leftover => simp

/-- The reports are on the assets in which a marker remains. -/
theorem mem_leftovers_iff {ctx : Context} {assets : AssetTable} {d : Diagnostic} :
    d ∈ leftovers ctx assets ↔ ∃ name source, assets.source? name = some source ∧
      outcome ctx name source = .leftover ∧ d = leftoverMarker name := by
  rw [leftovers, List.mem_filterMap]
  constructor
  · rintro ⟨name, -, h⟩
    cases hsource : assets.source? name with
    | none => simp [hsource] at h
    | some source =>
      cases houtcome : outcome ctx name source with
      | leftover =>
        simp only [hsource, Option.map_some, houtcome, Option.some.injEq] at h
        exact ⟨name, source, hsource, houtcome, h.symm⟩
      | untouched => simp [hsource, houtcome] at h
      | resolved text => simp [hsource, houtcome] at h
  · rintro ⟨name, source, hsource, houtcome, rfl⟩
    refine ⟨name, ?_, by simp only [hsource, Option.map_some, houtcome]⟩
    exact AssetTable.mem_names_iff.2 (AssetTable.mem_of_source? hsource)

/-- No script of a table has a load to resolve. -/
def AllResolved (ctx : Context) (assets : AssetTable) : Prop :=
  ∀ name source, assets.source? name = some source → outcome ctx name source = .untouched

theorem AllResolved.rewritten?_eq_none {ctx : Context} {assets : AssetTable} {source : String}
    (h : AllResolved ctx assets) (hsource : assets.source? name = some source) :
    rewritten? ctx name source = none := by
  rw [rewritten?, h name source hsource]

theorem AllResolved.leftovers_eq_nil {ctx : Context} {assets : AssetTable}
    (h : AllResolved ctx assets) : leftovers ctx assets = [] := by
  refine List.eq_nil_iff_forall_not_mem.2 fun d hd => ?_
  obtain ⟨name, source, hsource, hleftover, -⟩ := mem_leftovers_iff.1 hd
  rw [h name source hsource] at hleftover
  cases hleftover

/-- **What an asset holds afterwards** is what it was resolved to, without a
marker, or what it held before, and then that is resolved to nothing. -/
theorem after_cases {ctx : Context} {assets : AssetTable} {source : String}
    (h : (resolveLoads ctx assets).2.source? name = some source) :
    outcome ctx name source = .untouched ∨
      assets.source? name = some source ∧ outcome ctx name source = .leftover := by
  obtain ⟨old, hold, ⟨hnone, rfl⟩ | hsome⟩ := AssetTable.source_of_rewrite h
  · cases houtcome : outcome ctx name source with
    | untouched => exact .inl rfl
    | leftover => exact .inr ⟨hold, rfl⟩
    | resolved text =>
      rw [rewritten?_eq_some_iff.2 houtcome] at hnone
      cases hnone
  · obtain ⟨-, -, hclean⟩ := of_outcome_resolved (rewritten?_eq_some_iff.1 hsome)
    exact .inl (outcome_of_not_hasMarker hclean)

/-- **Where no marker is left, all scripts are resolved.** -/
theorem allResolved_resolveLoads {ctx : Context} {assets : AssetTable}
    (h : leftovers ctx assets = []) : AllResolved ctx (resolveLoads ctx assets).2 := by
  intro name source hsource
  rcases after_cases hsource with huntouched | ⟨hold, hleftover⟩
  · exact huntouched
  · have hreport := mem_leftovers_iff.2 ⟨name, source, hold, hleftover, rfl⟩
    rw [h] at hreport
    cases hreport

/-- The contents of an asset are its new text, where it has one, and what
they were otherwise. -/
theorem getElem?_resolveLoads {ctx : Context} {assets : AssetTable} {source : String}
    (hsource : assets.source? name = some source) : (resolveLoads ctx assets).2[name]? =
      ((rewritten? ctx name source).map String.toUTF8).or assets[name]? :=
  AssetTable.getElem?_rewrite_of_source? hsource

/-- An asset that is resolved is not reported. -/
theorem not_mem_subjects_of_resolved {ctx : Context} {assets : AssetTable} {source text : String}
    (hsource : assets.source? name = some source) (h : outcome ctx name source = .resolved text) :
    ∀ d ∈ (resolveLoads ctx assets).1, name ∉ d.subjects := by
  intro d hd hmem
  obtain ⟨other, text', hother, hleftover, rfl⟩ := mem_leftovers_iff.1 hd
  obtain rfl : name = other := List.mem_singleton.1 hmem
  rw [hsource] at hother
  obtain rfl := Option.some.inj hother
  rw [h] at hleftover
  cases hleftover

/-- **An intact script is replaced by its output and not reported, and any
other stays as it is and is reported.** -/
theorem output_if_intact_else_reported {ctx : Context} {assets : AssetTable}
    (hext : ctx.scriptExtension = ".js") (hname : ∃ stem, name = stem ++ ".js")
    (hapart : Apart Item.isText items) (hmarked : ∃ i ∈ items, i.isText = false)
    (hsource : assets.source? name = some (String.ofList (source items))) :
    (Intact items →
      (resolveLoads ctx assets).2[name]? = some (String.ofList (output name ".js" items)).toUTF8 ∧
        ∀ d ∈ (resolveLoads ctx assets).1, name ∉ d.subjects) ∧
    (¬ Intact items →
      (resolveLoads ctx assets).2[name]? = assets[name]? ∧
        leftoverMarker name ∈ (resolveLoads ctx assets).1) := by
  constructor
  · intro h
    have houtcome := outcome_of_intact hext hname hapart hmarked h
    refine ⟨?_, not_mem_subjects_of_resolved hsource houtcome⟩
    rw [getElem?_resolveLoads hsource, rewritten?, houtcome]
    rfl
  · intro h
    have houtcome := outcome_of_not_intact hext hname hapart hmarked h
    have hreport := mem_leftovers_iff.2 ⟨name, _, hsource, houtcome, rfl⟩
    refine ⟨?_, hreport⟩
    rw [getElem?_resolveLoads hsource, rewritten?, houtcome]
    rfl

/-! A script that loads a bundle and holds a region, once with a body that
leaves the begin marker alone and once with one that goes on from it. -/

/-- A load call without a comment. -/
def loadOfShared : Load where
  comment := none
  id := ⟨"common/shared".toList, by decide, by decide, by decide, by decide⟩

/-- A region with a text as its body. -/
def regionOf (chars : List Char) (h : Unmarked chars) : DeadRegion where
  lead := []
  body := [.text chars h]
  closed := false
  trail := []
  blanks_lead := nofun
  blanks_trail := nofun
  apart := List.isChain_singleton _

/-- A region whose body leaves its begin marker alone. -/
def plainScript : List Item :=
  [.piece (.load loadOfShared), .region (regionOf "debug()".toList (by decide))]

/-- A region whose body goes on from its begin marker as a load call. -/
def spoiledScript : List Item :=
  [.region (regionOf "subpack_require_async__(\"x\")".toList (by decide))]

/-- The table of one script. -/
def scriptTable (name : String) (items : List Item) : AssetTable :=
  .ofList [(name, (String.ofList (source items)).toUTF8)]

theorem source?_scriptTable (name : String) (items : List Item) :
    (scriptTable name items).source? name = some (String.ofList (source items)) :=
  AssetTable.source?_single name _

/-- The first script is replaced by its load and empty braces. -/
theorem plainScript_resolved :
    (resolveLoads .default (scriptTable "pages/a.js" plainScript)).2["pages/a.js"]? =
        some "require.async(\"../common/shared.js\"){}".toUTF8 ∧
      ∀ d ∈ (resolveLoads .default (scriptTable "pages/a.js" plainScript)).1,
        "pages/a.js" ∉ d.subjects := by
  have houtput : String.ofList (output "pages/a.js" ".js" plainScript) =
      "require.async(\"../common/shared.js\"){}" := by
    decide
  rw [← houtput]
  have hintact : Intact plainScript := by decide
  exact (output_if_intact_else_reported rfl ⟨"pages/a", by decide⟩ (by decide)
    ⟨.piece (.load loadOfShared), List.mem_cons_self, rfl⟩ (source?_scriptTable _ _)).1 hintact

/-- The second is not: of the scripts that are written so, not every one is
replaced by its output. -/
theorem not_forall_resolved :
    ¬ ∀ (ctx : Context) (assets : AssetTable) (name : String) (items : List Item),
      ctx.scriptExtension = ".js" → (∃ stem, name = stem ++ ".js") → Apart Item.isText items →
      (∃ i ∈ items, i.isText = false) →
      assets.source? name = some (String.ofList (source items)) →
      (resolveLoads ctx assets).2[name]? = some (String.ofList (output name ".js" items)).toUTF8 ∧
        ∀ d ∈ (resolveLoads ctx assets).1, name ∉ d.subjects := by
  intro h
  have hname : ∃ stem, "a.js" = stem ++ ".js" := ⟨"a", by decide⟩
  have hapart : Apart Item.isText spoiledScript := by decide
  have hmarked : ∃ i ∈ spoiledScript, i.isText = false := ⟨_, List.mem_cons_self, rfl⟩
  have hsource := source?_scriptTable "a.js" spoiledScript
  have houtcome : outcome .default "a.js" (String.ofList (source spoiledScript)) = .leftover :=
    outcome_of_not_intact rfl hname hapart hmarked (by decide)
  have hreport := mem_leftovers_iff.2 ⟨"a.js", _, hsource, houtcome, rfl⟩
  exact (h _ _ _ _ rfl hname hapart hmarked hsource).2 _ hreport List.mem_cons_self

end Script

end SplitBuild
