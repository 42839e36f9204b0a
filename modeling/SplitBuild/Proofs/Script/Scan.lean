import SplitBuild.Proofs.Script.Regions
/-!
# Scanning a script item by item

A script is resolved in two scans, the loads first and then the regions.
Item by item, a text stays, a load call becomes a load of the host, and a
region is emptied (`scan_piece`, `scan_region`). There is one thing that a
region can do to itself. The begin marker ends in two underscores, a load
call begins with two, and so a body may go on from the marker with what
reads as a load call. Then the begin marker is gone before any region is
read, and what is left of it remains (`marked_scan_region`). Where this
happens nowhere the script is `Intact` and becomes its output
(`scan_source`).
-/

namespace SplitBuild

namespace Script

variable {asset : String} {w rest : List Char} {items : List Item}

/-! ## Resolving the loads -/

/-- A text with its loads resolved. -/
def loads (asset : String) (s : List Char) : List Char :=
  Text.editAll (LoadCall.resolution asset ".js") s

/-- A text in which no load call begins stays. -/
theorem loads_append (h : Text.Nowhere (fun s => (LoadCall.read? s).isSome) w rest) :
    loads asset (w ++ rest) = w ++ loads asset rest :=
  Text.editAll_append_of_nowhere (h.mono fun s hs => by simpa [LoadCall.resolution] using hs)

/-- What is read at a place is resolved there. -/
theorem loads_of_read? {s : List Char} {call : LoadCall} (h : LoadCall.read? s = some (call, rest)) :
    loads asset s = call.resolved asset ".js" ++ loads asset rest :=
  Text.editAll_of_some (by simp [LoadCall.resolution, h]) (LoadCall.length_lt_of_read? h)

/-- No load call begins in a stretch in which its marker does not. -/
theorem nowhere_read? (h : Text.Nowhere (loadMarker.toList <+: ·) w rest) :
    Text.Nowhere (fun s => (LoadCall.read? s).isSome) w rest :=
  h.mono fun _ => LoadCall.marker_of_read?

theorem nowhere_read?_of_underscore_not_mem (h : '_' ∉ w) :
    Text.Nowhere (fun s => (LoadCall.read? s).isSome) w rest := by
  refine nowhere_read? ((nowhere_of_underscore_not_mem h).mono fun s hs => ?_)
  exact (markerStart_isPrefix_head.trans markerHead_isPrefix_load).trans hs

/-- What follows a text among pieces is a load call, or follows the pieces. -/
theorem seam_of_text {chars : List Char} {h : Unmarked chars} {pieces : List Piece}
    (hapart : Apart Piece.isText (.text chars h :: pieces)) (hrest : Seam rest) :
    Seam (pieces.flatMap Piece.source ++ rest) := by
  cases pieces with
  | nil => exact hrest
  | cons p pieces =>
    cases p with
    | text => exact absurd ⟨rfl, rfl⟩ (List.isChain_cons_cons.1 hapart).1
    | load l =>
      left
      simp only [List.flatMap_cons, Piece.source, Load.source, List.append_assoc]
      exact markerHead_isPrefix_load.trans (List.prefix_append _ _)

/-- A text in front of a seam stays, and a load call is resolved. -/
theorem loads_piece (p : Piece) (h : p.isText → Seam rest) :
    loads asset (p.source ++ rest) = p.output asset ".js" ++ loads asset rest := by
  cases p with
  | text chars hchars =>
    have hno := hchars.nowhere (h rfl)
    exact loads_append (nowhere_read? (hno.mono fun _ => markerHead_isPrefix_load.trans))
  | load l => exact loads_of_read? (LoadCall.read?_source l rest)

theorem loads_pieces {pieces : List Piece} (hapart : Apart Piece.isText pieces)
    (hrest : Seam rest) : loads asset (pieces.flatMap Piece.source ++ rest) =
      pieces.flatMap (Piece.output asset ".js") ++ loads asset rest := by
  induction pieces with
  | nil => rfl
  | cons p pieces ih =>
    have hp : p.isText → Seam (pieces.flatMap Piece.source ++ rest) := by
      cases p with
      | text chars h => exact fun _ => seam_of_text hapart hrest
      | load l => exact nofun
    simp only [List.flatMap_cons, List.append_assoc]
    rw [loads_piece p hp, ih hapart.tail]

/-- What follows the end marker of a region is no part of a load call. -/
theorem DeadRegion.exists_close (r : DeadRegion) : ∃ tail, r.close = removeEnd.toList ++ tail ∧
    tail ≠ [] ∧ ∀ c ∈ tail, c ∉ loadMarker.toList := by
  have hall : loadMarker.toList.all (fun d => !Text.isBlank d) = true := by decide
  have hblank : ∀ d ∈ loadMarker.toList, Text.isBlank d = false := by simpa using hall
  have hsemicolon : ';' ∉ loadMarker.toList := by decide
  have hbrace : '}' ∉ loadMarker.toList := by decide
  refine ⟨(if r.closed then [';'] else []) ++ (r.trail ++ ['}']), ?_, by simp, ?_⟩
  · simp only [DeadRegion.close, List.append_assoc]
  · intro c hc hmem
    rcases List.mem_append.1 hc with hc | hc
    · cases hr : r.closed with
      | true =>
        rw [hr, if_pos rfl, List.mem_singleton] at hc
        exact hsemicolon (hc ▸ hmem)
      | false => simp [hr] at hc
    rcases List.mem_append.1 hc with hc | hc
    · exact r.blanks_trail.not_mem (hblank c hmem) hc
    · exact hbrace (List.mem_singleton.1 hc ▸ hmem)

/-- No load call begins from the end marker of a region on. -/
theorem nowhere_read?_close (r : DeadRegion) :
    Text.Nowhere (fun s => (LoadCall.read? s).isSome) r.close rest := by
  obtain ⟨tail, hclose, hne, htail⟩ := r.exists_close
  have hmarker : ¬ loadMarker.toList <:+: removeEnd.toList := by decide
  have hunderscore : '_' ∈ loadMarker.toList := by decide
  rw [hclose, Text.nowhere_append]
  constructor
  · -- the two markers differ, and what follows the end marker does not go on with the other
    refine nowhere_read? (Text.nowhere_of_head hmarker fun c hc => ?_)
    rw [List.head?_append_of_ne_nil _ hne] at hc
    exact htail c (List.mem_of_mem_head? hc)
  · exact nowhere_read?_of_underscore_not_mem fun h => htail _ h hunderscore

/-- The brace and the blanks in front of a begin marker hold no load call. -/
theorem underscore_not_mem_lead (r : DeadRegion) : '_' ∉ '{' :: r.lead := by
  intro h
  rcases List.mem_cons.1 h with h | h
  · cases h
  · exact r.blanks_lead.not_mem (by decide) h

/-- **The loads of a region are resolved**, where none begins in its begin
marker. -/
theorem loads_region (r : DeadRegion)
    (h : Text.Nowhere (fun s => (LoadCall.read? s).isSome) removeBegin.toList (r.inside ++ rest)) :
    loads asset (r.source ++ rest) = r.loaded asset ".js" ++ loads asset rest := by
  have hseam : Seam (r.close ++ rest) := by
    left
    simp only [DeadRegion.close, List.append_assoc]
    exact markerHead_isPrefix_removeEnd.trans (List.prefix_append _ _)
  calc loads asset (r.source ++ rest)
      = loads asset (('{' :: r.lead) ++ (removeBegin.toList ++ (r.inside ++ rest))) := by
        simp [DeadRegion.source]
    _ = ('{' :: r.lead) ++ loads asset (removeBegin.toList ++ (r.inside ++ rest)) :=
        loads_append (nowhere_read?_of_underscore_not_mem (underscore_not_mem_lead r))
    _ = ('{' :: r.lead) ++ (removeBegin.toList ++ loads asset (r.inside ++ rest)) := by
        rw [loads_append h]
    _ = ('{' :: r.lead) ++ (removeBegin.toList ++ (r.body.flatMap (Piece.output asset ".js")
          ++ loads asset (r.close ++ rest))) := by
        rw [DeadRegion.inside, List.append_assoc, loads_pieces r.apart hseam]
    _ = ('{' :: r.lead) ++ (removeBegin.toList ++ (r.body.flatMap (Piece.output asset ".js")
          ++ (r.close ++ loads asset rest))) := by
        rw [loads_append (nowhere_read?_close r)]
    _ = r.loaded asset ".js" ++ loads asset rest := by
        simp [DeadRegion.loaded]

/-! ## Emptying the regions -/

/-- A text with its loads resolved and its regions empty. -/
def scan (asset : String) (s : List Char) : List Char :=
  Text.editAll Region.removal (loads asset s)

theorem not_begin_of_stops (h : Stops rest) : ¬ removeBegin.toList <+: rest := by
  intro hbegin
  obtain ⟨t, rfl⟩ := hbegin
  have hmem : '_' ∈ markerStart.toList := by decide
  exact h '_' rfl hmem

/-- Behind the blanks at the front of a stretch without a marker there is
no begin marker, unless it follows the stretch. -/
theorem not_begin_trimStart_append (h : Text.Nowhere (markerStart.toList <+: ·) w rest)
    (hrest : ¬ removeBegin.toList <+: Text.trimStart rest) :
    ¬ removeBegin.toList <+: Text.trimStart (w ++ rest) := by
  induction w with
  | nil => exact hrest
  | cons c w ih =>
    cases hc : Text.isBlank c with
    | true =>
      rw [Text.trimStart, List.cons_append, List.dropWhile_cons_of_pos hc]
      exact ih h.2
    | false =>
      have hstart : markerStart.toList <+: removeBegin.toList := by decide
      rw [List.cons_append, trimStart_cons hc]
      exact fun hbegin => h.1 (hstart.trans hbegin)

/-- **No region begins in a stretch without a marker**, where the first
thing behind it is no begin marker. -/
theorem nowhere_removal (h : Text.Nowhere (markerStart.toList <+: ·) w rest)
    (hrest : ¬ removeBegin.toList <+: Text.trimStart rest) :
    Text.Nowhere (fun s => (Region.removal s).isSome) w rest := by
  induction w with
  | nil => trivial
  | cons c w ih =>
    refine ⟨fun hread => ?_, ih h.2⟩
    simp only [Region.removal, Option.isSome_map] at hread
    obtain ⟨t, ht, hbegin⟩ := Region.exists_of_read? hread
    obtain ⟨-, rfl⟩ := List.cons.inj ht
    exact not_begin_trimStart_append h.2 hrest hbegin

theorem nowhere_removal_of_brace_not_mem (h : '{' ∉ w) :
    Text.Nowhere (fun s => (Region.removal s).isSome) w rest := by
  have hbrace : Text.Nowhere (['{'] <+: ·) w rest := Text.nowhere_of_not_mem h
  refine hbrace.mono fun s hs => ?_
  simp only [Region.removal, Option.isSome_map] at hs
  obtain ⟨t, rfl, -⟩ := Region.exists_of_read? hs
  exact ⟨t, rfl⟩

theorem Apart.of_text {chars : List Char} {h : Unmarked chars}
    (hapart : Apart Item.isText (.piece (.text chars h) :: items)) :
    ∀ i ∈ items.head?, i.isText = false := by
  intro i hi
  cases items with
  | nil => cases hi
  | cons j items =>
    obtain rfl : j = i := by simpa using hi
    have := (List.isChain_cons_cons.1 hapart).1
    simpa [Item.isText, Piece.isText] using this

theorem Load.head_source (l : Load) (rest : List Char) : markerHead <+: l.source ++ rest := by
  simp only [Load.source, List.append_assoc]
  exact markerHead_isPrefix_load.trans (List.prefix_append _ _)

/-- What does not begin with a text begins with a marker or a brace. -/
theorem seam_source (h : ∀ i ∈ items.head?, i.isText = false) : Seam (source items) := by
  cases items with
  | nil => exact .inr stops_nil
  | cons i items =>
    have hi : i.isText = false := h i rfl
    rw [source_cons]
    match i, hi with
    | .piece (.load l), _ => exact .inl (l.head_source _)
    | .region r, _ => exact .inr (stops_cons (by decide))

/-- With its loads resolved it begins with a load of the host or a brace. -/
theorem head?_loads_source (asset : String) (h : ∀ i ∈ items.head?, i.isText = false) :
    ∀ c ∈ (loads asset (source items)).head?, c = 'r' ∨ c = '{' := by
  intro c hc
  cases items with
  | nil => simp [source, loads, Text.editAll] at hc
  | cons i items =>
    have hi : i.isText = false := h i rfl
    rw [source_cons] at hc
    cases i with
    | piece p =>
      cases p with
      | text => cases hi
      | load l =>
        have hload := LoadCall.read?_source l (source items)
        rw [Item.source, Piece.source, loads_of_read? hload] at hc
        obtain rfl : 'r' = c := Option.some.inj hc
        exact .inl rfl
    | region r =>
      have hbrace : Text.Nowhere (fun s => (LoadCall.read? s).isSome) ['{']
          (r.lead ++ (removeBegin.toList ++ r.inside) ++ source items) :=
        nowhere_read?_of_underscore_not_mem (by decide)
      rw [Item.source, DeadRegion.source, List.cons_append, ← List.singleton_append,
        loads_append hbrace] at hc
      obtain rfl : '{' = c := Option.some.inj hc
      exact .inr rfl

/-- **What follows a text stops every marker**, and no begin marker follows
its blanks. -/
theorem stops_loads_source (asset : String) (h : ∀ i ∈ items.head?, i.isText = false) :
    Stops (loads asset (source items)) ∧
      ¬ removeBegin.toList <+: Text.trimStart (loads asset (source items)) := by
  have hr : 'r' ∉ markerStart.toList ∧ Text.isBlank 'r' = false := by decide
  have hbrace : '{' ∉ markerStart.toList ∧ Text.isBlank '{' = false := by decide
  cases hloads : loads asset (source items) with
  | nil => exact ⟨stops_nil, not_begin_of_stops stops_nil⟩
  | cons c cs =>
    have hc : c ∉ markerStart.toList ∧ Text.isBlank c = false := by
      rcases head?_loads_source asset h c (by rw [hloads]; rfl) with rfl | rfl
      · exact hr
      · exact hbrace
    rw [trimStart_cons hc.2]
    exact ⟨stops_cons hc.1, not_begin_of_stops (stops_cons hc.1)⟩

/-- Behind the blanks at the front of a script no begin marker stands. -/
theorem not_begin_loads_source (asset : String) (hapart : Apart Item.isText items) :
    ¬ removeBegin.toList <+: Text.trimStart (loads asset (source items)) := by
  by_cases h : ∀ i ∈ items.head?, i.isText = false
  · exact (stops_loads_source asset h).2
  -- a text is in front, and behind it stands none
  match items, hapart, h with
  | [], _, h => exact absurd (fun _ hi => by cases hi) h
  | .piece (.load l) :: items, _, h => exact absurd (by rintro i ⟨⟩; rfl) h
  | .region r :: items, _, h => exact absurd (by rintro i ⟨⟩; rfl) h
  | .piece (.text chars hchars) :: items, hapart, _ =>
    have hrest := hapart.of_text
    obtain ⟨hstops, hbegin⟩ := stops_loads_source asset hrest
    rw [source_cons, Item.source, loads_piece _ fun _ => seam_source hrest]
    exact not_begin_trimStart_append (hchars.nowhere_of_stops hstops) hbegin

/-! ## Items -/

/-- **A text stays and a load call is resolved**, whatever items follow. -/
theorem scan_piece {p : Piece} (hapart : Apart Item.isText (.piece p :: items)) :
    scan asset (p.source ++ source items) = p.output asset ".js" ++ scan asset (source items) := by
  cases p with
  | text chars h =>
    obtain ⟨hstops, hbegin⟩ := stops_loads_source asset hapart.of_text
    rw [scan, loads_piece _ fun _ => seam_source hapart.of_text]
    exact Text.editAll_append_of_nowhere (nowhere_removal (h.nowhere_of_stops hstops) hbegin)
  | load l =>
    have hbegin := not_begin_loads_source asset hapart.tail
    rw [scan, loads_piece _ (by rintro ⟨⟩)]
    exact Text.editAll_append_of_nowhere (nowhere_removal l.nowhere_resolved hbegin)

/-- **A region is emptied**, where no load call begins in its begin
marker. -/
theorem scan_region {r : DeadRegion}
    (h : Text.Nowhere (fun s => (LoadCall.read? s).isSome) removeBegin.toList
      (r.inside ++ rest)) :
    scan asset (r.source ++ rest) = ['{', '}'] ++ scan asset rest := by
  have hread := Region.read?_loaded r asset (loads asset rest)
  rw [scan, loads_region r h]
  refine Text.editAll_of_some (by rw [Region.removal, hread]; rfl) ?_
  rw [List.length_append, DeadRegion.loaded, List.length_cons]
  omega

/-- **An intact script becomes its output.** -/
theorem scan_source (hapart : Apart Item.isText items) (h : Intact items) :
    scan asset (source items) = output asset ".js" items := by
  induction items with
  | nil => simp [scan, loads, source, output, Text.editAll]
  | cons i items ih =>
    rw [source_cons, output_cons]
    cases i with
    | piece p => exact (scan_piece hapart).trans (congrArg _ (ih hapart.tail h))
    | region r => exact (scan_region h.1).trans (congrArg _ (ih hapart.tail h.2))

/-! ## Scripts that are not intact -/

/-- What the begin marker consists of in front of its last underscores. -/
def beginStem : List Char := "__subpack_remove_begin".toList

theorem removeBegin_eq : removeBegin.toList = beginStem ++ ['_', '_'] := by decide

/-- Where a load call begins in two underscores, they do not both stay. -/
theorem not_underscores_loads (asset : String) {s : List Char}
    (h : ¬ Text.Nowhere (fun s => (LoadCall.read? s).isSome) ['_', '_'] s) :
    ¬ ['_', '_'] <+: loads asset (['_', '_'] ++ s) := by
  by_cases hfirst : (LoadCall.read? ('_' :: '_' :: s)).isSome
  · -- a load of the host stands in place of both
    obtain ⟨⟨call, rest⟩, hread⟩ := Option.isSome_iff_exists.1 hfirst
    rw [List.cons_append, List.singleton_append, loads_of_read? hread]
    intro hbegin
    have := (List.cons_prefix_cons.1 hbegin).1
    revert this
    decide
  · have hsecond : (LoadCall.read? ('_' :: s)).isSome := by
      by_contra hsecond
      exact h ⟨hfirst, hsecond, trivial⟩
    -- the first one stays, and a load of the host stands in place of the other
    obtain ⟨⟨call, rest⟩, hread⟩ := Option.isSome_iff_exists.1 hsecond
    have hstay : loads asset (['_'] ++ ('_' :: s)) = ['_'] ++ loads asset ('_' :: s) :=
      loads_append ⟨hfirst, trivial⟩
    have heq : ['_', '_'] ++ s = ['_'] ++ ('_' :: s) := rfl
    rw [heq, hstay, loads_of_read? hread]
    intro hbegin
    have := (List.cons_prefix_cons.1 (List.cons_prefix_cons.1 hbegin).2).1
    revert this
    decide

/-- No load call begins in the begin marker in front of its last
underscores. -/
theorem nowhere_read?_beginStem (s : List Char) :
    Text.Nowhere (fun s => (LoadCall.read? s).isSome) beginStem s :=
  nowhere_read? (Text.nowhere_of_ends (by decide) (by decide))

/-- Up to the last underscores of its begin marker a region stays, whatever
is read from there on. -/
theorem loads_region_beginStem (r : DeadRegion) : loads asset (r.source ++ rest) =
    ('{' :: (r.lead ++ beginStem)) ++ loads asset (['_', '_'] ++ (r.inside ++ rest)) := by
  have hsource : r.source ++ rest = ('{' :: r.lead) ++ (beginStem
      ++ (['_', '_'] ++ (r.inside ++ rest))) := by
    simp only [DeadRegion.source, removeBegin_eq, List.cons_append, List.append_assoc]
  rw [hsource, loads_append (nowhere_read?_of_underscore_not_mem (underscore_not_mem_lead r)),
    loads_append (nowhere_read?_beginStem _), ← List.append_assoc, List.cons_append]

/-- No region begins there where the underscores are gone. -/
theorem nowhere_removal_beginStem (r : DeadRegion) (h : ¬ ['_', '_'] <+: rest) :
    Text.Nowhere (fun s => (Region.removal s).isSome) ('{' :: (r.lead ++ beginStem)) rest := by
  refine ⟨fun hread => ?_, nowhere_removal_of_brace_not_mem ?_⟩
  · simp only [Region.removal, Option.isSome_map] at hread
    obtain ⟨t, ht, hbegin⟩ := Region.exists_of_read? hread
    obtain ⟨-, rfl⟩ := List.cons.inj ht
    have htrim : Text.trimStart (beginStem ++ rest) = beginStem ++ rest :=
      trimStart_cons (by decide)
    rw [List.append_assoc, trimStart_append r.blanks_lead, removeBegin_eq, htrim] at hbegin
    exact h ((List.prefix_append_right_inj beginStem).1 hbegin)
  · have hbrace : '{' ∉ beginStem := by decide
    exact fun hmem => (List.mem_append.1 hmem).elim (r.blanks_lead.not_mem (by decide)) hbrace

/-- **A region stays with what is left of its begin marker**, where a load
call begins in the marker. -/
theorem marked_scan_region {r : DeadRegion}
    (h : ¬ Text.Nowhere (fun s => (LoadCall.read? s).isSome) removeBegin.toList
      (r.inside ++ rest)) :
    markerStart.toList <:+: scan asset (r.source ++ rest) := by
  have hscores : ¬ Text.Nowhere (fun s => (LoadCall.read? s).isSome) ['_', '_']
      (r.inside ++ rest) := by
    intro hno
    refine h ?_
    rw [removeBegin_eq, Text.nowhere_append]
    exact ⟨nowhere_read?_beginStem _, hno⟩
  have hregion := nowhere_removal_beginStem r (not_underscores_loads asset hscores)
  have hstart : markerStart.toList <+: beginStem := by decide
  rw [scan, loads_region_beginStem, Text.editAll_append_of_nowhere hregion]
  exact hstart.isInfix.trans (List.infix_append ('{' :: r.lead) beginStem _)

/-- **Something of a marker remains in a script that is not intact.** -/
theorem marked_scan_of_not_intact (asset : String) (hapart : Apart Item.isText items)
    (h : ¬ Intact items) : markerStart.toList <:+: scan asset (source items) := by
  induction items with
  | nil => exact absurd trivial h
  | cons i items ih =>
    rw [source_cons]
    cases i with
    | piece p =>
      rw [Item.source, scan_piece hapart]
      exact (ih hapart.tail h).trans (List.suffix_append _ _).isInfix
    | region r =>
      by_cases hr : Text.Nowhere (fun s => (LoadCall.read? s).isSome) removeBegin.toList
          (r.inside ++ source items)
      · rw [Item.source, scan_region hr]
        have hitems : ¬ Intact items := fun hitems => h ⟨hr, hitems⟩
        exact (ih hapart.tail hitems).trans (List.suffix_append _ _).isInfix
      · exact marked_scan_region hr

end Script

end SplitBuild
