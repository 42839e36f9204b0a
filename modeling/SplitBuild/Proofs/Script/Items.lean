import SplitBuild.Script.Marker
import SplitBuild.Proofs.Text.Occurrence
import Mathlib.Data.List.Chain
/-!
# Scripts as items

A script with loads and removed regions is a sequence of items: texts in
which no marker stands, load calls, and regions that hold texts and load
calls. `source` is the script as it is written, and `output` what the host
gets. A load call is read back from what is written, whatever follows
(`LoadCall.read?_source`).

Every marker begins with `markerHead`, which does not overlap itself. A
text therefore ends before what a marker begins, and `Seam` says of what
may follow a text that no marker begins in the text and ends there.
-/

namespace SplitBuild

namespace Script

/-! ## Markers and what is apart from them -/

/-- A stretch in which no marker stands. -/
def Unmarked (w : List Char) : Prop := ¬ markerStart.toList <:+: w

instance (w : List Char) : Decidable (Unmarked w) :=
  inferInstanceAs (Decidable (¬ markerStart.toList <:+: w))

/-- What the markers that are read begin with. -/
def markerHead : List Char := "__subpack_r".toList

/-- No marker goes on into `rest`. -/
def Stops (rest : List Char) : Prop := ∀ c ∈ rest.head?, c ∉ markerStart.toList

/-- What may follow a stretch in which no marker stands: a marker, or
nothing that goes on with one. -/
def Seam (rest : List Char) : Prop := markerHead <+: rest ∨ Stops rest

theorem markerStart_isPrefix_head : markerStart.toList <+: markerHead := by decide

theorem markerHead_isPrefix_load : markerHead <+: loadMarker.toList := by decide

theorem markerHead_isPrefix_removeEnd : markerHead <+: removeEnd.toList := by decide

/-- **No marker begins in a stretch where none stands**, where none goes on
behind it. -/
theorem Unmarked.nowhere_of_stops {w rest : List Char} (hw : Unmarked w) (hrest : Stops rest) :
    Text.Nowhere (markerStart.toList <+: ·) w rest := Text.nowhere_of_head hw hrest

/-- A marker that is read does not begin there either where another
follows, since it does not overlap itself. -/
theorem Unmarked.nowhere {w rest : List Char} (hw : Unmarked w) (hrest : Seam rest) :
    Text.Nowhere (markerHead <+: ·) w rest := by
  rcases hrest with h | h
  · refine Text.nowhere_of_borderless (by decide) (fun hi => hw ?_) h
    exact markerStart_isPrefix_head.isInfix.trans hi
  · exact (hw.nowhere_of_stops h).mono fun _ => markerStart_isPrefix_head.trans

/-! ## Load calls -/

/-- At least one character on one line, in front of the first `close`. -/
structure Enclosed (close : List Char) where
  chars : List Char
  ne_nil : chars ≠ []
  one_line : '\n' ∉ chars
  unclosed : ¬ close <:+: chars
  unmarked : Unmarked chars

/-- A comment in front of the bundle of a load call. -/
structure Comment where
  inside : Enclosed ['*', '/']
  /-- The blank between the comment and the bundle. -/
  blank : Option Char
  isBlank_of_mem : ∀ c ∈ blank, Text.isBlank c

/-- A comment as it is written. -/
def Comment.source (k : Comment) : List Char :=
  ['/', '*'] ++ k.inside.chars ++ ['*', '/'] ++ k.blank.toList

/-- A load call that is written down. -/
structure Load where
  comment : Option Comment
  id : Enclosed ['"', ')']

namespace Load

/-- What is read of a load call. -/
def call (l : Load) : LoadCall where
  comment := (l.comment.map Comment.source).getD []
  id := l.id.chars

/-- A load call as it is written. -/
def source (l : Load) : List Char :=
  loadMarker.toList ++ ['('] ++ l.call.comment ++ ['"'] ++ l.call.id ++ ['"', ')']

end Load

/-- No end of what is enclosed begins in it behind its first character. -/
theorem Enclosed.exists_cons {close : List Char} (e : Enclosed close)
    (hclose : Text.Borderless close) {rest : List Char} (hrest : close <+: rest) :
    ∃ c cs, e.chars = c :: cs ∧ '\n' ∉ c :: cs ∧ Text.Nowhere (close <+: ·) cs rest := by
  obtain ⟨c, cs, h⟩ := List.exists_cons_of_ne_nil e.ne_nil
  refine ⟨c, cs, h, h ▸ e.one_line, Text.nowhere_of_borderless hclose (fun hi => ?_) hrest⟩
  exact e.unclosed (h ▸ hi.trans (List.suffix_cons c cs).isInfix)

namespace LoadCall

/-- A line is read up to the first `close` behind its first character. -/
theorem lineUntil?_append {close cs rest : List Char} {c : Char} (hline : '\n' ∉ c :: cs)
    (h : Text.Nowhere (close <+: ·) cs (close ++ rest)) :
    lineUntil? close (c :: (cs ++ (close ++ rest))) = some (c :: cs, rest) := by
  induction cs generalizing c with
  | nil =>
    have hc : c ≠ '\n' := by simpa [eq_comm] using hline
    simp [lineUntil?, hc]
  | cons d ds ih =>
    have hc : c ≠ '\n' := fun hc => hline (by simp [hc])
    have hd : Text.after? close (d :: (ds ++ (close ++ rest))) = none :=
      Text.after?_eq_none_iff.2 h.1
    rw [lineUntil?, if_neg hc, List.cons_append, hd]
    simp [ih (fun hn => hline (List.mem_cons_of_mem _ hn)) h.2]

theorem quotedId?_append (e : Enclosed ['"', ')']) (rest : List Char) :
    quotedId? ('"' :: (e.chars ++ ['"', ')'] ++ rest)) = some (e.chars, rest) := by
  obtain ⟨c, cs, h, hline, hcs⟩ := e.exists_cons (by decide) (List.prefix_append _ rest)
  rw [h, quotedId?, List.append_assoc]
  exact lineUntil?_append hline hcs

/-- A comment is read up to the first end behind its first character that
a bundle follows. -/
theorem commented?_append {cs s rest : List Char} {c : Char} {call : LoadCall}
    (hs : commentRest? s = some (call, rest)) (hline : '\n' ∉ c :: cs)
    (h : Text.Nowhere (['*', '/'] <+: ·) cs s) :
    commented? (c :: (cs ++ s)) = some ({ call with comment := c :: cs ++ call.comment }, rest) := by
  induction cs generalizing c with
  | nil =>
    have hc : c ≠ '\n' := by simpa [eq_comm] using hline
    simp [commented?, hc, hs]
  | cons d ds ih =>
    have hc : c ≠ '\n' := fun hc => hline (by simp [hc])
    have hd : commentRest? (d :: (ds ++ s)) = none := by
      rw [commentRest?, Text.after?_eq_none_iff.2 h.1]
      rfl
    rw [commented?, if_neg hc, List.cons_append, hd]
    simp [ih (fun hn => hline (List.mem_cons_of_mem _ hn)) h.2]

/-- The blank between a comment and a bundle is read as such. -/
theorem oneBlank_append {k : Comment} {rest : List Char} :
    oneBlank (k.blank.toList ++ '"' :: rest) = (k.blank.toList, '"' :: rest) := by
  cases h : k.blank with
  | none =>
    have : Text.isBlank '"' = false := by decide
    simp [oneBlank, this]
  | some c => simp [oneBlank, k.isBlank_of_mem c h]

theorem commentRest?_append (k : Comment) (e : Enclosed ['"', ')']) (rest : List Char) :
    commentRest? (['*', '/'] ++ (k.blank.toList ++ '"' :: (e.chars ++ ['"', ')'] ++ rest))) =
      some (⟨['*', '/'] ++ k.blank.toList, e.chars⟩, rest) := by
  rw [commentRest?, Text.after?_append]
  simp only [Option.bind_eq_bind, Option.bind_some, oneBlank_append, quotedId?_append]
  rfl

/-- **A load call is read back**, whatever follows it. -/
theorem read?_source (l : Load) (rest : List Char) :
    read? (l.source ++ rest) = some (l.call, rest) := by
  have hsource : l.source ++ rest = (loadMarker.toList ++ ['('])
      ++ (l.call.comment ++ '"' :: (l.id.chars ++ ['"', ')'] ++ rest)) := by
    simp [Load.source, Load.call]
  rw [hsource, read?, Text.after?_append, Option.bind_some, Load.call, arguments?]
  cases l.comment with
  | none =>
    have hid := quotedId?_append l.id rest
    have hplain : Text.after? ['/', '*'] ('"' :: (l.id.chars ++ ['"', ')'] ++ rest)) = none := by
      simp [Text.after?]
    simp only [Option.map_none, Option.getD_none, List.nil_append, hplain, hid, Option.map_some]
  | some k =>
    obtain ⟨c, cs, h, hline, hcs⟩ := k.inside.exists_cons (by decide) (List.prefix_append _ _)
    have hinside := commented?_append (commentRest?_append k l.id rest) hline hcs
    have hcomment : k.source ++ '"' :: (l.id.chars ++ ['"', ')'] ++ rest) = ['/', '*']
        ++ (c :: (cs ++ (['*', '/'] ++ (k.blank.toList
          ++ '"' :: (l.id.chars ++ ['"', ')'] ++ rest))))) := by
      simp [Comment.source, h]
    simp only [Option.map_some, Option.getD_some, hcomment, Text.after?_append, hinside]
    simp [Comment.source, h]

/-! What is read of a text stands at its front, and what is left follows. -/

theorem eq_append_of_lineUntil? {close s : List Char} {p : List Char × List Char}
    (h : lineUntil? close s = some p) : s = p.1 ++ close ++ p.2 := by
  induction s generalizing p with
  | nil => simp [lineUntil?] at h
  | cons c cs ih =>
    rw [lineUntil?] at h
    split at h
    · cases h
    split at h
    · rename_i rest hafter
      rw [Text.after?_eq_some_iff] at hafter
      obtain rfl := Option.some.inj h
      rw [hafter]
      rfl
    · obtain ⟨q, hq, rfl⟩ := Option.map_eq_some_iff.1 h
      rw [ih hq]
      rfl

theorem eq_append_of_quotedId? {s : List Char} {p : List Char × List Char}
    (h : quotedId? s = some p) : s = '"' :: (p.1 ++ ['"', ')'] ++ p.2) := by
  unfold quotedId? at h
  split at h
  · rw [← eq_append_of_lineUntil? h]
  · cases h

theorem oneBlank_append_eq (s : List Char) : (oneBlank s).1 ++ (oneBlank s).2 = s := by
  cases s with
  | nil => rfl
  | cons c cs =>
    rw [oneBlank]
    split <;> rfl

theorem eq_append_of_commentRest? {s : List Char} {p : LoadCall × List Char}
    (h : commentRest? s = some p) :
    s = p.1.comment ++ '"' :: (p.1.id ++ ['"', ')'] ++ p.2) := by
  obtain ⟨t, ht, h⟩ := Option.bind_eq_some_iff.1 h
  obtain ⟨q, hq, h⟩ := Option.bind_eq_some_iff.1 h
  rw [Text.after?_eq_some_iff] at ht
  obtain rfl := Option.some.inj h
  have hrest : (oneBlank t).2 = '"' :: (q.1 ++ ['"', ')'] ++ q.2) := eq_append_of_quotedId? hq
  calc s = ['*', '/'] ++ ((oneBlank t).1 ++ (oneBlank t).2) := by rw [ht, oneBlank_append_eq]
    _ = ['*', '/'] ++ (oneBlank t).1 ++ '"' :: (q.1 ++ ['"', ')'] ++ q.2) := by
      simp only [hrest, List.append_assoc]

theorem eq_append_of_commented? {s : List Char} {p : LoadCall × List Char}
    (h : commented? s = some p) :
    s = p.1.comment ++ '"' :: (p.1.id ++ ['"', ')'] ++ p.2) := by
  induction s generalizing p with
  | nil => simp [commented?] at h
  | cons c cs ih =>
    rw [commented?] at h
    split at h
    · cases h
    split at h
    · rename_i call rest hrest
      obtain rfl := Option.some.inj h
      rw [eq_append_of_commentRest? hrest]
      rfl
    · obtain ⟨q, hq, rfl⟩ := Option.map_eq_some_iff.1 h
      rw [ih hq]
      rfl

theorem eq_append_of_arguments? {s : List Char} {p : LoadCall × List Char}
    (h : arguments? s = some p) :
    s = p.1.comment ++ '"' :: (p.1.id ++ ['"', ')'] ++ p.2) := by
  unfold arguments? at h
  split at h
  · rename_i inside hinside
    rw [Text.after?_eq_some_iff] at hinside
    obtain ⟨q, hq, rfl⟩ := Option.map_eq_some_iff.1 h
    rw [hinside, eq_append_of_commented? hq]
    rfl
  · obtain ⟨q, hq, rfl⟩ := Option.map_eq_some_iff.1 h
    rw [eq_append_of_quotedId? hq]
    rfl

/-- **A load call is read where it is written.** -/
theorem eq_append_of_read? {s : List Char} {p : LoadCall × List Char} (h : read? s = some p) :
    s = loadMarker.toList ++ ['('] ++ (p.1.comment ++ '"' :: (p.1.id ++ ['"', ')'] ++ p.2)) := by
  obtain ⟨args, hargs, h⟩ := Option.bind_eq_some_iff.1 h
  rw [Text.after?_eq_some_iff] at hargs
  rw [hargs, eq_append_of_arguments? h]

/-- A load call takes something of the text it is read from. -/
theorem length_lt_of_read? {s : List Char} {p : LoadCall × List Char} (h : read? s = some p) :
    p.2.length < s.length := by
  rw [eq_append_of_read? h]
  simp only [List.length_append, List.length_cons]
  omega

/-- A load call begins with its marker. -/
theorem marker_of_read? {s : List Char} (h : (read? s).isSome) : loadMarker.toList <+: s := by
  obtain ⟨p, hp⟩ := Option.isSome_iff_exists.1 h
  rw [eq_append_of_read? hp, List.append_assoc]
  exact List.prefix_append _ _

end LoadCall

/-! ## Texts and load calls -/

/-- A text or a load call. -/
inductive Piece where
  | text (chars : List Char) (unmarked : Unmarked chars)
  | load (l : Load)

namespace Piece

def isText : Piece → Bool
  | text _ _ => true
  | load _ => false

/-- A piece as it is written. -/
def source : Piece → List Char
  | text chars _ => chars
  | load l => l.source

/-- A piece as the host gets it in an asset. -/
def output (asset extension : String) : Piece → List Char
  | text chars _ => chars
  | load l => l.call.resolved asset extension

end Piece

/-- No two texts of a sequence are neighbours. -/
def Apart {α : Type} (isText : α → Bool) (l : List α) : Prop :=
  l.IsChain fun a b => ¬ (isText a ∧ isText b)

instance {α : Type} (isText : α → Bool) (l : List α) : Decidable (Apart isText l) :=
  inferInstanceAs (Decidable (l.IsChain fun a b => ¬ (isText a ∧ isText b)))

/-! ## Regions and items -/

/-- A stretch of white space. -/
def Blanks (w : List Char) : Prop := ∀ c ∈ w, Text.isBlank c

theorem Blanks.not_mem {w : List Char} {c : Char} (hw : Blanks w) (hc : Text.isBlank c = false) :
    c ∉ w := by
  intro h
  have hblank := hw c h
  rw [hc] at hblank
  cases hblank

/-- A region that is removed. -/
structure DeadRegion where
  lead : List Char
  body : List Piece
  /-- A semicolon follows the end marker. -/
  closed : Bool
  trail : List Char
  blanks_lead : Blanks lead
  blanks_trail : Blanks trail
  apart : Apart Piece.isText body

namespace DeadRegion

/-- What follows the body of a region, from the end marker on. -/
def close (r : DeadRegion) : List Char :=
  removeEnd.toList ++ (if r.closed then [';'] else []) ++ r.trail ++ ['}']

/-- What follows the begin marker of a region. -/
def inside (r : DeadRegion) : List Char := r.body.flatMap Piece.source ++ r.close

/-- A region as it is written. -/
def source (r : DeadRegion) : List Char :=
  '{' :: (r.lead ++ (removeBegin.toList ++ r.inside))

/-- A region in an asset with its loads resolved. -/
def loaded (asset extension : String) (r : DeadRegion) : List Char :=
  '{' :: (r.lead ++ (removeBegin.toList
    ++ (r.body.flatMap (Piece.output asset extension) ++ r.close)))

end DeadRegion

/-- A text, a load call or a region. -/
inductive Item where
  | piece (p : Piece)
  | region (r : DeadRegion)

namespace Item

def isText : Item → Bool
  | piece p => p.isText
  | region _ => false

/-- An item as it is written. -/
def source : Item → List Char
  | piece p => p.source
  | region r => r.source

/-- An item as the host gets it in an asset. -/
def output (asset extension : String) : Item → List Char
  | piece p => p.output asset extension
  | region _ => ['{', '}']

end Item

/-- A script as it is written. -/
def source (items : List Item) : List Char := items.flatMap Item.source

/-- A script as the host gets it in an asset. -/
def output (asset extension : String) (items : List Item) : List Char :=
  items.flatMap (Item.output asset extension)

@[simp] theorem source_cons (i : Item) (items : List Item) :
    source (i :: items) = i.source ++ source items := List.flatMap_cons

@[simp] theorem output_cons (asset extension : String) (i : Item) (items : List Item) :
    output asset extension (i :: items) = i.output asset extension ++ output asset extension items :=
  List.flatMap_cons

/-- No load call begins in the begin marker of a region. -/
def Intact : List Item → Prop
  | [] => True
  | .piece _ :: items => Intact items
  | .region r :: items =>
    Text.Nowhere (fun s => (LoadCall.read? s).isSome) removeBegin.toList (r.inside ++ source items)
      ∧ Intact items

instance Intact.instDecidable : (items : List Item) → Decidable (Intact items)
  | [] => isTrue trivial
  | .piece _ :: items => Intact.instDecidable items
  | .region _ :: items =>
    have := Intact.instDecidable items
    inferInstanceAs (Decidable (_ ∧ Intact items))

end Script

end SplitBuild
