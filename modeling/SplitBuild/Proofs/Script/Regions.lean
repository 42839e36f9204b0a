import SplitBuild.Proofs.Script.Items
/-!
# Reading regions

The loads of a script are resolved before its regions are read. What is put
in place of a load call holds no marker (`Load.nowhere_resolved`), and so
the first end marker behind a begin marker is the one that was written:
a region is read back (`Region.read?_loaded`), whatever follows it.
-/

namespace SplitBuild

namespace Script

variable {asset : String} {w rest : List Char}

/-! ## What is put in holds no marker -/

/-- No marker begins where there is no underscore. -/
theorem nowhere_of_underscore_not_mem (h : '_' ∉ w) :
    Text.Nowhere (markerStart.toList <+: ·) w rest := by
  have hstart : markerStart.toList = '_' :: "_subpack_".toList := by decide
  rw [hstart]
  exact Text.nowhere_of_not_mem h

/-- The way to the output root is made of steps up. -/
theorem mem_upward {c : Char} (h : c ∈ (Path.upward asset).toList) : c ∈ "../".toList := by
  rw [Path.upward, String.toList_join, List.mem_flatMap] at h
  obtain ⟨step, hstep, hc⟩ := h
  rwa [List.eq_of_mem_replicate hstep] at hc

theorem underscore_not_mem_upward : '_' ∉ (Path.upward asset).toList := fun h =>
  absurd (mem_upward h) (by decide)

theorem stops_nil : Stops [] := fun _ h => by cases h

theorem stops_cons {c : Char} (h : c ∉ markerStart.toList) : Stops (c :: rest) := by
  rintro d ⟨⟩
  exact h

namespace Comment

/-- No marker begins in a comment. -/
theorem nowhere_source (k : Comment) : Text.Nowhere (markerStart.toList <+: ·) k.source rest := by
  simp only [Comment.source, Text.nowhere_append]
  refine ⟨⟨⟨?_, ?_⟩, ?_⟩, ?_⟩
  · exact nowhere_of_underscore_not_mem (by decide)
  · exact k.inside.unmarked.nowhere_of_stops (stops_cons (by decide))
  · exact nowhere_of_underscore_not_mem (by decide)
  · have hblanks : Blanks k.blank.toList := fun c h => k.isBlank_of_mem c (Option.mem_toList.1 h)
    exact nowhere_of_underscore_not_mem (hblanks.not_mem (by decide))

end Comment

namespace Load

/-- **No marker begins in a resolved load.** -/
theorem nowhere_resolved (l : Load) :
    Text.Nowhere (markerStart.toList <+: ·) (l.call.resolved asset ".js") rest := by
  have hcomment : ∀ rest, Text.Nowhere (markerStart.toList <+: ·) l.call.comment rest := by
    intro rest
    cases h : l.comment with
    | none => simp [Load.call, h, Text.Nowhere]
    | some k => simpa [Load.call, h] using k.nowhere_source
  simp only [LoadCall.resolved, Path.relative, String.toList_append, String.toList_ofList,
    Text.nowhere_append]
  refine ⟨⟨⟨⟨⟨?_, ?_⟩, hcomment _⟩, ?_⟩, ⟨?_, ?_⟩, ?_⟩, ?_⟩
  · exact nowhere_of_underscore_not_mem (by decide)
  · exact nowhere_of_underscore_not_mem (by decide)
  · exact nowhere_of_underscore_not_mem (by decide)
  · exact nowhere_of_underscore_not_mem underscore_not_mem_upward
  · exact l.id.unmarked.nowhere_of_stops (stops_cons (by decide))
  · exact nowhere_of_underscore_not_mem (by decide)
  · exact nowhere_of_underscore_not_mem (by decide)

/-- The host function that a resolved load begins with is no part of a marker. -/
theorem stops_resolved (l : Load) : Stops (l.call.resolved asset ".js" ++ rest) :=
  stops_cons (by decide)

end Load

/-- What follows a text among pieces does not go on with a marker once the
loads are resolved. -/
theorem stops_output_of_text {chars : List Char} {h : Unmarked chars} {pieces : List Piece}
    (hapart : Apart Piece.isText (.text chars h :: pieces)) (hrest : Stops rest) :
    Stops (pieces.flatMap (Piece.output asset ".js") ++ rest) := by
  cases pieces with
  | nil => exact hrest
  | cons p pieces =>
    cases p with
    | text => exact absurd ⟨rfl, rfl⟩ (List.isChain_cons_cons.1 hapart).1
    | load l =>
      rw [List.flatMap_cons, List.append_assoc]
      exact l.stops_resolved

/-- **No marker begins in the output of pieces.** -/
theorem nowhere_output {pieces : List Piece} (hapart : Apart Piece.isText pieces)
    (hrest : Stops rest) :
    Text.Nowhere (markerStart.toList <+: ·) (pieces.flatMap (Piece.output asset ".js")) rest := by
  induction pieces with
  | nil => trivial
  | cons p pieces ih =>
    rw [List.flatMap_cons, Text.nowhere_append]
    refine ⟨?_, ih hapart.tail⟩
    cases p with
    | text chars h => exact h.nowhere_of_stops (stops_output_of_text hapart hrest)
    | load l => exact l.nowhere_resolved

/-- The body of a region has no marker once its loads are resolved. -/
theorem DeadRegion.unmarked_output (r : DeadRegion) (asset : String) :
    Unmarked (r.body.flatMap (Piece.output asset ".js")) := by
  have hne : markerStart.toList ≠ [] := by decide
  exact Text.not_infix_of_nowhere hne (nowhere_output r.apart stops_nil)

/-! ## Regions -/

/-- Blanks at the front of a text are trimmed with what follows them. -/
theorem trimStart_append (h : Blanks w) :
    Text.trimStart (w ++ rest) = Text.trimStart rest :=
  List.dropWhile_append_of_pos h

theorem trimStart_cons {c : Char} (h : Text.isBlank c = false) :
    Text.trimStart (c :: rest) = c :: rest := by
  rw [Text.trimStart, List.dropWhile_cons_of_neg (by simp [h])]

namespace Region

/-- A region begins with a brace, and with blanks up to a marker. -/
theorem exists_of_read? {s : List Char} (h : (read? s).isSome) :
    ∃ t, s = '{' :: t ∧ removeBegin.toList <+: Text.trimStart t := by
  obtain ⟨after, hafter⟩ := Option.isSome_iff_exists.1 h
  obtain ⟨t, ht, hbody⟩ := Option.bind_eq_some_iff.1 hafter
  obtain ⟨inside, hinside, -⟩ := Option.bind_eq_some_iff.1 hbody
  rw [Text.after?_eq_some_iff] at ht hinside
  exact ⟨t, ht, inside, hinside.symm⟩

/-- The end marker is sought behind a stretch in which none begins. -/
theorem rest?_append_of_nowhere (h : Text.Nowhere (removeEnd.toList <+: ·) w rest) :
    rest? (w ++ rest) = rest? rest := by
  induction w with
  | nil => rfl
  | cons c w ih =>
    have hno : Text.after? removeEnd.toList (c :: (w ++ rest)) = none :=
      Text.after?_eq_none_iff.2 h.1
    rw [List.cons_append, rest?, hno]
    exact ih h.2

/-- The end of a region is where it was written. -/
theorem close?_append (r : DeadRegion) (rest : List Char) :
    close? ((if r.closed then [';'] else []) ++ (r.trail ++ '}' :: rest)) = some rest := by
  have hbrace : Text.trimStart (r.trail ++ '}' :: rest) = '}' :: rest := by
    rw [trimStart_append r.blanks_trail, trimStart_cons (by decide)]
  -- without a semicolon the blanks come first, or the brace
  have hopen : Text.after? [';'] (r.trail ++ '}' :: rest) = none := by
    rw [Text.after?_eq_none_iff]
    intro h
    cases htrail : r.trail with
    | nil => simp [htrail] at h
    | cons c cs =>
      rw [htrail, List.cons_append, List.cons_prefix_cons] at h
      have hmem : ';' ∈ r.trail := by
        rw [htrail, h.1]
        exact List.mem_cons_self
      exact r.blanks_trail.not_mem (by decide) hmem
  cases r.closed with
  | true => simp [close?, Text.after?, hbrace]
  | false => simp [close?, hopen, hbrace, Text.after?]

theorem rest?_close (r : DeadRegion) (rest : List Char) : rest? (r.close ++ rest) = some rest := by
  have hclose : r.close ++ rest = removeEnd.toList
      ++ ((if r.closed then [';'] else []) ++ (r.trail ++ '}' :: rest)) := by
    simp [DeadRegion.close]
  have hne : removeEnd.toList ≠ [] := by decide
  obtain ⟨c, cs, hcs⟩ : ∃ c cs, r.close ++ rest = c :: cs := by
    rw [hclose]
    exact List.exists_cons_of_ne_nil (List.append_ne_nil_of_left_ne_nil hne _)
  rw [hcs, rest?, ← hcs, hclose, Text.after?_append, Option.bind_some, close?_append]

/-- **A region with its loads resolved is read back**, whatever follows it:
its body has no end marker, so that the first one is its own. -/
theorem read?_loaded (r : DeadRegion) (asset : String) (rest : List Char) :
    read? (r.loaded asset ".js" ++ rest) = some rest := by
  have hloaded : r.loaded asset ".js" ++ rest = ['{'] ++ (r.lead ++ (removeBegin.toList
      ++ (r.body.flatMap (Piece.output asset ".js") ++ (r.close ++ rest)))) := by
    simp [DeadRegion.loaded]
  have hblank : ∀ s, Text.trimStart (removeBegin.toList ++ s) = removeBegin.toList ++ s :=
    fun s => trimStart_cons (by decide)
  have hclose : removeEnd.toList <+: r.close ++ rest := by
    simp only [DeadRegion.close, List.append_assoc]
    exact List.prefix_append _ _
  have hbody := (r.unmarked_output asset).nowhere (.inl (markerHead_isPrefix_removeEnd.trans hclose))
  rw [hloaded, read?, Text.after?_append]
  simp only [Option.bind_eq_bind, Option.bind_some, trimStart_append r.blanks_lead, hblank,
    Text.after?_append]
  rw [rest?_append_of_nowhere (hbody.mono fun _ => markerHead_isPrefix_removeEnd.trans), rest?_close]

end Region

end Script

end SplitBuild
