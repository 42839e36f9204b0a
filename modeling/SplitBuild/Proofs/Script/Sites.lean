import SplitBuild.Proofs.Json.Quoting
import SplitBuild.Proofs.Script.Comments
import SplitBuild.Proofs.Script.Resolution
/-!
# Load sites are resolved

The expression of a load site is a script of texts and load calls. Its
comment cannot be closed from within (`comment?_cases`), and the
quoted form of a bundle holds an end of a load call only where the bundle
does. So the marker calls of the expression are the ones that are resolved,
and a resolved call names the bundle's file, quoted, since a way to the
output root and the extension need no escape (`resolved_loadOf`).
**Resolving the expression replaces the marker calls by host loads and
leaves the rest as it is** (`render_resolved`).
-/

namespace SplitBuild

namespace LoadSite

open Script

variable {site : LoadSite} {g : BundleGraph} {message asset : String}

/-! ## Sites whose calls are read back -/

/-- What the comment of a site says. -/
def remarks (site : LoadSite) (message : String) : List (Option String) :=
  [some message, site.chunkName, site.chunkReason]

/-- A bundle that a marker call can name. -/
structure Loadable (id : String) : Prop where
  ne_empty : id ≠ ""
  unmarked : Unmarked id.toList
  unclosed : ¬ ['"', ')'] <:+: id.toList

/-- A site that does not mention markers itself. A comment in a load call
takes one line. -/
structure Legible (site : LoadSite) (g : BundleGraph) (message : String) : Prop where
  unmarked : ∀ r, some r ∈ site.remarks message → Unmarked r.toList
  loadable : ∀ id ∈ site.toLoad g, Loadable id
  one_line : ∀ only, site.toLoad g = [only] → ∀ r, some r ∈ site.remarks message → '\n' ∉ r.toList

/-- The bundles of a site are there already. -/
def IsResident (site : LoadSite) (g : BundleGraph) : Prop :=
  site.toLoad g = [] ∨ ∃ only, site.toLoad g = [only] ∧ site.originBundles = [only]

/-- The expression of a site with the loads written by `call`, from the
comment of the load and the bundle. -/
def renderWith (call : String → String → String) (site : LoadSite) (g : BundleGraph)
    (message : String) : String :=
  let comment? := site.siteComment? message
  let comment := comment?.getD ""
  let resident := "Promise.resolve(" ++ comment ++ ")"
  match site.toLoad g with
  | [] => resident
  | [only] =>
    if site.originBundles = [only] then resident
    else call (match comment? with | some c => c ++ " " | none => "") only
  | many => "Promise.all(" ++ comment ++ "[" ++ ", ".intercalate (many.map (call "")) ++ "])"

theorem renderWith_markerCall : site.renderWith markerCall g message = site.render g message := rfl

/-- The way from an asset to the file of a bundle, quoted. -/
def hostQuoted (asset id : String) : String :=
  String.ofList (Json.quote (Path.relative asset id ".js"))

/-- The load of the host, in an asset, of a bundle with a comment. -/
def hostCall (asset comment id : String) : String :=
  hostLoad ++ "(" ++ comment ++ hostQuoted asset id ++ ")"

theorem unmarked_comment (h : site.Legible g message) :
    Unmarked ((site.siteComment? message).getD "").toList := by
  rcases comment?_cases (site.remarks message) with hnone | ⟨inside, hsome, hwords⟩
  · rw [siteComment?, ← remarks, hnone]
    decide
  · rw [siteComment?, ← remarks, hsome, Option.getD_some, String.append_assoc, String.toList_append,
      String.toList_append]
    have hinside := (hwords.unmarked h.unmarked).append (v := " */".toList) (by decide)
      (stops_cons (by decide))
    exact hinside.append_left (by decide)

/-- **Where nothing is to be loaded, no marker is written.** -/
theorem unmarked_of_isResident (h : site.Legible g message) (hresident : site.IsResident g) :
    Unmarked (site.render g message).toList := by
  have hrender : site.render g message =
      "Promise.resolve(" ++ (site.siteComment? message).getD "" ++ ")" := by
    rcases hresident with hnone | ⟨only, honly, horigin⟩
    · simp only [render, hnone]
    · simp only [render, honly, horigin, if_true]
  rw [hrender, String.append_assoc, String.toList_append, String.toList_append]
  have hcomment := (unmarked_comment h).append (v := ")".toList) (by decide) (stops_cons (by decide))
  exact hcomment.append_left (by decide)

/-! ## The expression as a script -/

/-- The comment in front of a single load, with the space behind it. -/
theorem exists_comment (h : site.Legible g message) {only : String}
    (honly : site.toLoad g = [only]) :
    ∃ k : Option Comment, String.ofList ((k.map Comment.source).getD []) =
      match site.siteComment? message with | some c => c ++ " " | none => "" := by
  rcases comment?_cases (site.remarks message) with hnone | ⟨inside, hsome, hwords⟩
  · rw [siteComment?, ← remarks, hnone]
    exact ⟨none, rfl⟩
  · have hmarker := hwords.unmarked h.unmarked
    have hline := hwords.one_line (h.one_line only honly)
    let enclosed : Enclosed ['*', '/'] :=
      { chars := ' ' :: (inside.toList ++ [' '])
        ne_nil := List.cons_ne_nil _ _
        one_line := by simpa using hline
        unclosed := hwords.spaced_unclosed
        unmarked := (hmarker.append (v := [' ']) (by decide) (stops_cons (by decide))).append_left
          (u := [' ']) (by decide) }
    have hblank : ∀ c ∈ some ' ', Text.isBlank c := by
      rintro c ⟨⟩
      decide
    refine ⟨some ⟨enclosed, some ' ', hblank⟩, ?_⟩
    rw [siteComment?, ← remarks, hsome]
    exact String.toList_injective (by simp [Comment.source, enclosed])

/-- The bundle of a load call, with what must be escaped in it. -/
def quotedId (id : {id : String // Loadable id}) : Enclosed ['"', ')'] where
  chars := id.1.toList.flatMap Json.escapeChar
  ne_nil := by
    intro hnil
    refine id.2.ne_empty (String.toList_eq_nil_iff.1 (List.eq_nil_iff_forall_not_mem.2 fun c hc => ?_))
    have hescape := List.flatMap_eq_nil_iff.1 hnil c hc
    rcases Json.escapeChar_cases c with h | h | ⟨_, h, -⟩ <;> rw [h] at hescape <;> cases hescape
  one_line := Json.newline_not_mem_escaped _
  unclosed := Json.not_infix_escaped (by decide) (by decide) id.2.unclosed
  unmarked := by
    have hstart : markerStart.toList = '_' :: "_subpack_".toList := by decide
    have h := id.2.unmarked
    rw [Unmarked, hstart] at h ⊢
    exact Json.not_infix_escaped (by decide) (by decide) h

/-- The load call of a bundle. -/
def loadOf (k : Option Comment) (id : {id : String // Loadable id}) : Load := ⟨k, quotedId id⟩

theorem source_loadOf (k : Option Comment) (id : {id : String // Loadable id}) :
    (loadOf k id).source =
      (markerCall (String.ofList ((k.map Comment.source).getD [])) id.1).toList := by
  simp [Load.source, Load.call, loadOf, quotedId, markerCall, Json.quote]

/-- **A resolved call names the file of the bundle, quoted.** -/
theorem resolved_loadOf (k : Option Comment) (id : {id : String // Loadable id}) :
    (loadOf k id).call.resolved asset ".js" =
      (hostCall asset (String.ofList ((k.map Comment.source).getD [])) id.1).toList := by
  have hupward : (Path.upward asset).toList.flatMap Json.escapeChar = (Path.upward asset).toList := by
    have hplain : ∀ c ∈ "../".toList, c ∉ Json.lettered ∧ 0x20 ≤ c.toNat := by
      refine List.forall_mem_cons.2 ⟨by decide, List.forall_mem_cons.2 ⟨by decide, ?_⟩⟩
      exact List.forall_mem_singleton.2 (by decide)
    exact Json.flatMap_escapeChar_eq_self fun c hc => hplain c (mem_upward hc)
  have hextension : ".js".toList.flatMap Json.escapeChar = ".js".toList := by decide
  simp only [LoadCall.resolved, Load.call, loadOf, quotedId, hostCall, hostQuoted, Json.quote, Path.relative,
    String.toList_append, String.toList_ofList, List.flatMap_append, hupward, hextension,
    List.append_assoc, List.cons_append]
  rfl

def comma : Item := .piece (.text ", ".toList (by decide))

def closing : Item := .piece (.text "])".toList (by decide))

/-- The load calls of several bundles, up to the end of the expression. -/
def listed : {id : String // Loadable id} → List {id : String // Loadable id} → List Item
  | id, [] => [.piece (.load (loadOf none id)), closing]
  | id, next :: rest => .piece (.load (loadOf none id)) :: comma :: listed next rest

variable {id : {id : String // Loadable id}} {rest : List {id : String // Loadable id}}

/-- The items stand for a list of calls, both where they are written and
where they are resolved. -/
theorem flatMap_listed {read : Item → List Char} {call : String → String}
    (hcomma : read comma = ", ".toList) (hclosing : read closing = "])".toList)
    (hload : ∀ id, read (.piece (.load (loadOf none id))) = (call id.1).toList) :
    (listed id rest).flatMap read =
      (", ".intercalate ((id :: rest).map fun id => call id.1) ++ "])").toList := by
  induction rest generalizing id with
  | nil => simp [listed, hload, hclosing, String.intercalate_singleton]
  | cons next rest ih =>
    rw [listed, List.flatMap_cons, List.flatMap_cons, hload, hcomma, ih]
    simp [String.intercalate_cons_cons]

theorem apart_listed (first : Item) : Apart Item.isText (first :: listed id rest) := by
  induction rest generalizing first id with
  | nil =>
    exact .cons_cons (fun h => Bool.noConfusion h.2)
      (.cons_cons (fun h => Bool.noConfusion h.1) (.singleton _))
  | cons next rest ih =>
    exact .cons_cons (fun h => Bool.noConfusion h.2)
      (.cons_cons (fun h => Bool.noConfusion h.1) (ih comma))

theorem intact_listed : Intact (listed id rest) := by
  induction rest generalizing id with
  | nil => trivial
  | cons next rest ih => exact ih

/-- **The expression of a site that loads something is a script**, and its
output is the expression with host loads. -/
theorem exists_items (h : site.Legible g message) (hload : ¬ site.IsResident g) :
    ∃ items, Apart Item.isText items ∧ Intact items ∧ (∃ i ∈ items, i.isText = false) ∧
      String.ofList (source items) = site.render g message ∧
      ∀ asset, String.ofList (output asset ".js" items) =
        site.renderWith (hostCall asset) g message := by
  obtain ⟨ids, hids⟩ : ∃ ids : List {id : String // Loadable id}, ids.map (·.1) = site.toLoad g :=
    ⟨(site.toLoad g).pmap Subtype.mk h.loadable, by simp [List.map_pmap]⟩
  match ids, hids with
  | [], hids => exact absurd (.inl hids.symm) hload
  | [id], hids =>
    -- the whole expression is one load call, and the comment is part of it
    have hids : site.toLoad g = [id.1] := hids.symm
    have horigin : site.originBundles ≠ [id.1] := fun horigin =>
      hload (.inr ⟨id.1, hids, horigin⟩)
    obtain ⟨k, hk⟩ := exists_comment h hids
    refine ⟨[.piece (.load (loadOf k id))], .singleton _, trivial,
      ⟨_, List.mem_cons_self, rfl⟩, ?_, fun asset => ?_⟩
    · simp only [source, List.flatMap_cons, List.flatMap_nil, List.append_nil, Item.source,
        Piece.source, source_loadOf, String.ofList_toList, render, hids, if_neg horigin]
      exact congrArg (fun comment => markerCall comment id.1) hk
    · simp only [output, List.flatMap_cons, List.flatMap_nil, List.append_nil, Item.output,
        Piece.output, resolved_loadOf, String.ofList_toList, renderWith, hids, if_neg horigin]
      exact congrArg (fun comment => hostCall asset comment id.1) hk
  | id :: next :: rest, hids =>
    -- the comment is part of the opening, and the load calls have none
    have hids : site.toLoad g = id.1 :: next.1 :: rest.map (·.1) := hids.symm
    have hopening : Unmarked ("Promise.all(" ++ (site.siteComment? message).getD "" ++ "[").toList := by
      rw [String.append_assoc, String.toList_append, String.toList_append]
      have hcomment := (unmarked_comment h).append (v := "[".toList) (by decide)
        (stops_cons (by decide))
      exact hcomment.append_left (by decide)
    refine ⟨.piece (.text _ hopening) :: listed id (next :: rest), apart_listed _,
      intact_listed, ⟨_, List.mem_cons_of_mem _ List.mem_cons_self, rfl⟩, ?_, fun asset => ?_⟩
    · refine String.toList_injective ?_
      rw [String.toList_ofList, source_cons, source, flatMap_listed rfl rfl (source_loadOf none)]
      simp only [Item.source, Piece.source, render, hids, List.map_cons, List.map_map,
        String.toList_append, List.append_assoc]
      rfl
    · refine String.toList_injective ?_
      rw [String.toList_ofList, output_cons, output, flatMap_listed rfl rfl (resolved_loadOf none)]
      simp only [Item.output, Piece.output, renderWith, hids, List.map_cons, List.map_map,
        String.toList_append, List.append_assoc]
      rfl

/-- **Resolving the expression of a site replaces its marker calls**, in
order and each by the load of the host with the same comment, and leaves
the rest as it is: the expression is written with marker calls, and what
comes out is the same expression with loads of the host in their place.
What the load of the host quotes is the way from the asset to the bundle.
Where nothing is to be loaded there is no marker. -/
theorem render_resolved {ctx : Context} {assets : AssetTable} (hext : ctx.scriptExtension = ".js")
    (hname : ∃ stem, asset = stem ++ ".js") (h : site.Legible g message) :
    site.renderWith markerCall g message = site.render g message ∧
    (site.IsResident g → ¬ hasMarker (site.render g message)) ∧
    (¬ site.IsResident g → assets.source? asset = some (site.render g message) →
      (resolveLoads ctx assets).2[asset]? =
          some (site.renderWith (hostCall asset) g message).toUTF8 ∧
        ¬ hasMarker (site.renderWith (hostCall asset) g message) ∧
        (∀ d ∈ (resolveLoads ctx assets).1, asset ∉ d.subjects) ∧
        ∀ id ∈ site.toLoad g, Json.Value.read? (hostQuoted asset id) =
          some (.string (Path.relative asset id ".js"))) := by
  refine ⟨renderWith_markerCall, ?_, ?_⟩
  · intro hresident hmarker
    rw [hasMarker, Text.contains_iff] at hmarker
    exact unmarked_of_isResident h hresident hmarker
  · intro hload hsource
    obtain ⟨items, hapart, hintact, hmarked, hsrc, hout⟩ := exists_items h hload
    rw [← hsrc] at hsource
    have houtcome := outcome_of_intact hext hname hapart hmarked hintact
    rw [hout asset] at houtcome
    refine ⟨?_, ?_, not_mem_subjects_of_resolved hsource houtcome,
      fun id _ => Json.Value.read?_quote _⟩
    · rw [getElem?_resolveLoads hsource, rewritten?, houtcome]
      rfl
    · rw [← hout asset, hasMarker_ofList]
      exact unmarked_output hapart

/-- A site that loads a bundle with quotes and a backslash in its name. -/
def quotingSite : LoadSite where
  chunkName := some "lazy"
  chunkReason := none
  bundles := ["app", "subA/\"a\\b\""]
  originBundles := ["app"]

/-- The bundle that the site loads from is there already. -/
def residentApp : BundleGraph where
  bundles := [{ Bundle.ofId "app" with hasRuntime := true }]

/-- The load of the host quotes the bundle again, and the comment stays. -/
theorem quotingSite_resolved :
    (resolveLoads .default
        (.ofList [("pages/a.js", (quotingSite.render residentApp "import()").toUTF8)])).2["pages/a.js"]? =
      some ("require.async(/* import() | lazy */ \"../subA/\\\"a\\\\b\\\".js\")").toUTF8 := by
  have hload : quotingSite.toLoad residentApp = ["subA/\"a\\b\""] := by decide
  have hresident : ¬ quotingSite.IsResident residentApp := by
    rw [IsResident, hload]
    simp [quotingSite]
  have hremarks : ∀ r, some r ∈ quotingSite.remarks "import()" → r = "import()" ∨ r = "lazy" := by
    simp [remarks, quotingSite]
  have hlegible : quotingSite.Legible residentApp "import()" := by
    refine ⟨fun r hr => ?_, fun id hid => ?_, fun _ _ r hr => ?_⟩
    · rcases hremarks r hr with rfl | rfl <;> decide
    · rw [hload, List.mem_singleton] at hid
      subst hid
      exact ⟨by decide, by decide, by decide⟩
    · rcases hremarks r hr with rfl | rfl <;> decide
  have hexpression : quotingSite.renderWith (hostCall "pages/a.js") residentApp "import()" =
      "require.async(/* import() | lazy */ \"../subA/\\\"a\\\\b\\\".js\")" := by
    decide +kernel
  rw [← hexpression]
  exact ((render_resolved rfl ⟨"pages/a", by decide⟩ hlegible).2.2 hresident
    (AssetTable.source?_single _ _)).1

end LoadSite

end SplitBuild
