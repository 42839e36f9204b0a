import SplitBuild.Proofs.Json.Quoting
import SplitBuild.Proofs.Script.Comments
/-!
# Code and comments

A reader of a script takes every character for code or for a part of a
comment (`partsFrom`). A comment goes on up to the first end of one,
whatever else stands in it (`partsFrom_comment`), and quotes are code,
whatever they hold (`isCode_quote`).

The free text of a load site stands in one comment. Its ends of comments
are taken apart, so **the comment ends where it is closed, and the reader
takes what stands before and behind it for code** (`comment_closed_once`).
-/

namespace SplitBuild

namespace Script

/-! ## The reader -/

/-- What a character of a script is a part of. -/
inductive Part where
  | code
  | comment
  deriving DecidableEq, Repr

/-- Where the reader of a script stands. -/
inductive Standing where
  | code
  /-- In quotes, up to the same mark. -/
  | quoted (mark : Char)
  /-- In a comment up to the end of the line. -/
  | line
  /-- In a comment up to the end of one. -/
  | block
  deriving DecidableEq, Repr

/-- The marks that quotes begin and end with. -/
def quoteMarks : List Char := "\"'`".toList

/-- The characters that end a line. -/
def lineEnds : List Char := ['\n', '\r', '\u2028', '\u2029']

/-- What the reader takes the characters of a script for. A slash that begins
no comment is an operator. -/
def partsFrom : Standing → List Char → List (Part × Char)
  | _, [] => []
  | .code, '/' :: '*' :: cs => (.comment, '/') :: (.comment, '*') :: partsFrom .block cs
  | .code, '/' :: '/' :: cs => (.comment, '/') :: (.comment, '/') :: partsFrom .line cs
  | .code, c :: cs => (.code, c) :: partsFrom (if c ∈ quoteMarks then .quoted c else .code) cs
  | .quoted mark, '\\' :: c :: cs => (.code, '\\') :: (.code, c) :: partsFrom (.quoted mark) cs
  | .quoted mark, c :: cs => (.code, c) :: partsFrom (if c = mark then .code else .quoted mark) cs
  | .line, c :: cs =>
    if c ∈ lineEnds then (.code, c) :: partsFrom .code cs else (.comment, c) :: partsFrom .line cs
  | .block, '*' :: '/' :: cs => (.comment, '*') :: (.comment, '/') :: partsFrom .code cs
  | .block, c :: cs => (.comment, c) :: partsFrom .block cs

/-- A text as code. -/
def asCode (s : List Char) : List (Part × Char) := s.map fun c => (.code, c)

/-- A text as a part of a comment. -/
def asComment (s : List Char) : List (Part × Char) := s.map fun c => (.comment, c)

variable {s u v body : List Char} {c : Char}

theorem asCode_append : asCode (u ++ v) = asCode u ++ asCode v := List.map_append

/-- The reader takes a text for code, and stands in code behind it. -/
def IsCode (s : List Char) : Prop := ∀ v, partsFrom .code (s ++ v) = asCode s ++ partsFrom .code v

theorem IsCode.append (hu : IsCode u) (hv : IsCode v) : IsCode (u ++ v) := by
  intro w
  rw [List.append_assoc, hu, hv, asCode_append, List.append_assoc]

/-- A character begins neither a comment nor quotes. -/
def isPlain (c : Char) : Bool := c ≠ '/' ∧ c ∉ quoteMarks

theorem isCode_of_plain (h : s.all isPlain) : IsCode s := by
  intro v
  induction s with
  | nil => rfl
  | cons c s ih =>
    rw [List.all_cons, Bool.and_eq_true] at h
    obtain ⟨hslash, hmark⟩ := of_decide_eq_true h.1
    rw [List.cons_append, partsFrom, if_neg hmark, ih h.2]
    · rfl
    · exact fun _ hc => absurd hc hslash
    · exact fun _ hc => absurd hc hslash

/-! ## Quotes -/

/-- Quotes go on over what is neither the mark nor a backslash. -/
theorem partsFrom_quoted {mark : Char} (hmark : mark ∉ u) (hescape : '\\' ∉ u) :
    partsFrom (.quoted mark) (u ++ v) = asCode u ++ partsFrom (.quoted mark) v := by
  induction u with
  | nil => rfl
  | cons c u ih =>
    rw [List.mem_cons, not_or] at hmark hescape
    rw [List.cons_append, partsFrom, if_neg (Ne.symm hmark.1), ih hmark.2 hescape.2]
    · rfl
    · exact fun _ _ hc => absurd hc.symm hescape.1

/-- **What stands for a character stays in its quotes.** -/
theorem partsFrom_escapeChar (c : Char) (v : List Char) :
    partsFrom (.quoted '"') (Json.escapeChar c ++ v) =
      asCode (Json.escapeChar c) ++ partsFrom (.quoted '"') v := by
  by_cases hlettered : c ∈ Json.lettered
  · obtain ⟨letter, -, hescape, -⟩ := Json.escapeChar_of_lettered hlettered
    rw [hescape]
    rfl
  · rcases Nat.lt_or_ge c.toNat 0x20 with hcontrol | hplain
    · have hhigh := Json.hexDigit_mem_controlLetters (show c.toNat / 16 < 16 by omega)
      have hlow := Json.hexDigit_mem_controlLetters (show c.toNat % 16 < 16 by omega)
      have hdigits (d : Char) (hd : d ∉ Json.controlLetters) :
          d ∉ ['0', '0', Json.hexDigit (c.toNat / 16), Json.hexDigit (c.toNat % 16)] := by
        have hzero : '0' ∈ Json.controlLetters := by decide
        intro hmem
        simp only [List.mem_cons, List.not_mem_nil, or_false] at hmem
        rcases hmem with rfl | rfl | rfl | rfl
        · exact hd hzero
        · exact hd hzero
        · exact hd hhigh
        · exact hd hlow
      rw [Json.escapeChar_of_control hlettered hcontrol, List.cons_append, List.cons_append, partsFrom,
        partsFrom_quoted (hdigits _ (by decide)) (hdigits _ (by decide))]
      rfl
    · have hquote : '"' ∉ [c] := by
        rw [List.mem_singleton]
        rintro rfl
        exact hlettered (by decide)
      have hslash : '\\' ∉ [c] := by
        rw [List.mem_singleton]
        rintro rfl
        exact hlettered (by decide)
      rw [Json.escapeChar_of_plain hlettered hplain, partsFrom_quoted hquote hslash]

/-- **A quoted text is code**, whatever it holds. -/
theorem isCode_quote (t : String) : IsCode (Json.quote t) := by
  intro v
  have hinside (s : List Char) : partsFrom (.quoted '"') (s.flatMap Json.escapeChar ++ '"' :: v) =
      asCode (s.flatMap Json.escapeChar ++ ['"']) ++ partsFrom .code v := by
    induction s with
    | nil => rfl
    | cons c s ih =>
      rw [List.flatMap_cons, List.append_assoc, partsFrom_escapeChar, ih]
      simp only [asCode_append, List.append_assoc]
  have hopen : partsFrom .code ('"' :: (t.toList.flatMap Json.escapeChar ++ '"' :: v)) =
      (.code, '"') :: partsFrom (.quoted '"') (t.toList.flatMap Json.escapeChar ++ '"' :: v) := rfl
  rw [Json.quote, List.cons_append, List.append_assoc, List.singleton_append, hopen, hinside]
  rfl

/-! ## Comments -/

/-- **A comment goes on up to its end**, where none stands in it before. -/
theorem partsFrom_comment (h : ¬ ['*', '/'] <:+: body) (v : List Char) :
    partsFrom .code ('/' :: '*' :: (body ++ '*' :: '/' :: v)) =
      asComment ('/' :: '*' :: (body ++ ['*', '/'])) ++ partsFrom .code v := by
  have hnowhere : Text.Nowhere (['*', '/'] <+: ·) body ('*' :: '/' :: v) :=
    Text.nowhere_of_borderless (by decide) h (by simp)
  have hblock : partsFrom .block (body ++ '*' :: '/' :: v) =
      asComment (body ++ ['*', '/']) ++ partsFrom .code v := by
    clear h
    induction body with
    | nil => rfl
    | cons c body ih =>
      obtain ⟨hclose, hrest⟩ := hnowhere
      rw [List.cons_append, partsFrom, ih hrest]
      · rfl
      · rintro cs rfl hcs
        exact hclose ⟨cs, by rw [hcs]; rfl⟩
  rw [partsFrom, hblock]
  rfl

end Script

namespace LoadSite

open Script

variable {site : LoadSite} {g : BundleGraph} {message : String}

/-! ## Expressions -/

/-- What stands in front of the comment: it depends on the bundles to load
and on those that hold the script. -/
def beforeComment (loads origins : List String) : String :=
  match loads with
  | [] => "Promise.resolve("
  | [only] => if origins = [only] then "Promise.resolve(" else loadMarker ++ "("
  | _ => "Promise.all("

/-- What stands behind the comment. -/
def afterComment (loads origins : List String) : String :=
  match loads with
  | [] => ")"
  | [only] => if origins = [only] then ")" else String.ofList (Json.quote only) ++ ")"
  | many => "[" ++ ", ".intercalate (many.map (markerCall "")) ++ "])"

/-- The expression of a site is its comment between code. -/
theorem exists_render_eq (site : LoadSite) (g : BundleGraph) (message : String) :
    ∃ gap, (gap = "" ∨ gap = " ") ∧
      site.render g message =
        beforeComment (site.toLoad g) site.originBundles ++
          (site.siteComment? message).getD "" ++
          (gap ++ afterComment (site.toLoad g) site.originBundles) := by
  rcases hload : site.toLoad g with _ | ⟨only, _ | ⟨second, rest⟩⟩
  · exact ⟨"", .inl rfl, by simp [render, hload, beforeComment, afterComment]⟩
  · by_cases horigin : site.originBundles = [only]
    · exact ⟨"", .inl rfl, by simp [render, hload, beforeComment, afterComment, horigin]⟩
    · -- the blank between the comment and the load is there where the comment is
      cases hcomment : site.siteComment? message with
      | none =>
        refine ⟨"", .inl rfl, ?_⟩
        simp [render, hload, beforeComment, afterComment, horigin, leadingComment, hcomment,
          markerCall, String.append_assoc]
      | some c =>
        refine ⟨" ", .inr rfl, ?_⟩
        simp [render, hload, beforeComment, afterComment, horigin, leadingComment, hcomment,
          markerCall, String.append_assoc]
  · exact ⟨"", .inl rfl, by simp [render, hload, beforeComment, afterComment, String.append_assoc]⟩

theorem isCode_beforeComment (loads origins : List String) :
    IsCode (beforeComment loads origins).toList := by
  unfold beforeComment
  split
  · exact isCode_of_plain (by decide)
  · split
    · exact isCode_of_plain (by decide)
    · exact isCode_of_plain (by decide)
  · exact isCode_of_plain (by decide)

theorem isCode_markerCall (id : String) : IsCode (markerCall "" id).toList := by
  have hopen : IsCode (loadMarker ++ "(").toList := isCode_of_plain (by decide)
  have hclose : IsCode ")".toList := isCode_of_plain (by decide)
  have h := (hopen.append (isCode_quote id)).append hclose
  simpa only [markerCall, String.toList_append, String.toList_ofList, String.append_empty] using h

theorem isCode_afterComment (loads origins : List String) :
    IsCode (afterComment loads origins).toList := by
  have hclose : IsCode ")".toList := isCode_of_plain (by decide)
  unfold afterComment
  split
  · exact hclose
  · split
    · exact hclose
    · rw [String.toList_append, String.toList_ofList]
      exact (isCode_quote _).append hclose
  · have hcalls : IsCode (", ".intercalate (loads.map (markerCall ""))).toList := by
      refine intercalate_of_forall (p := fun t => IsCode t.toList) (isCode_of_plain rfl)
        (fun t u ht hu => ?_) fun t ht => ?_
      · rw [String.toList_append, String.toList_append]
        exact (ht.append (isCode_of_plain (by decide))).append hu
      · obtain ⟨id, -, rfl⟩ := List.mem_map.1 ht
        exact isCode_markerCall id
    rw [String.toList_append, String.toList_append]
    exact ((isCode_of_plain (by decide)).append hcalls).append (isCode_of_plain (by decide))

/-! ## The comment of a site -/

/-- There is no comment, or it says its remarks, and in front of a load a
blank stands behind it. -/
theorem leadingComment_cases (site : LoadSite) (message : String) :
    (site.siteComment? message = none ∧ site.leadingComment message = "") ∨
      ∃ inside, site.siteComment? message = some ("/* " ++ inside ++ " */") ∧
        site.leadingComment message = "/* " ++ inside ++ " */ " ∧
        Says [some message, site.chunkName, site.chunkReason] inside := by
  rcases comment?_cases [some message, site.chunkName, site.chunkReason] with
    hnone | ⟨inside, hsome, hwords⟩
  · rw [← siteComment?] at hnone
    exact .inl ⟨hnone, by rw [leadingComment, hnone]⟩
  · rw [← siteComment?] at hsome
    refine .inr ⟨inside, hsome, ?_, hwords⟩
    simp [leadingComment, hsome, String.append_assoc]

/-- There is no comment where there is nothing to say. -/
theorem leadingComment_eq_empty_iff :
    site.leadingComment message = "" ↔
      message = "" ∧ site.chunkName.getD "" = "" ∧ site.chunkReason.getD "" = "" := by
  have hnothing : site.leadingComment message = "" ↔ site.siteComment? message = none := by
    rcases leadingComment_cases site message with ⟨hnone, hempty⟩ | ⟨inside, hsome, hcomment, -⟩
    · exact iff_of_true hempty hnone
    · refine iff_of_false (fun hempty => ?_) (hsome ▸ Option.some_ne_none _)
      have hlength := congrArg String.length (hcomment.symm.trans hempty)
      simp at hlength
  rw [hnothing, siteComment?, comment?_eq_none_iff]
  cases site.chunkName <;> cases site.chunkReason <;> simp

/-- Between code the comment stands without the blank. -/
theorem trim_leadingComment :
    Text.trim (site.leadingComment message).toList = ((site.siteComment? message).getD "").toList := by
  rcases leadingComment_cases site message with ⟨hnone, hempty⟩ | ⟨inside, hsome, hcomment, -⟩
  · simp [hempty, hnone, Text.trim, Text.trimStart, Text.trimEnd]
  · have hslash : Text.isBlank '/' = false := by decide
    have hblank : Text.isBlank ' ' = true := by decide
    simp [hcomment, hsome, Text.trim, Text.trimStart, Text.trimEnd, hslash, hblank]

/-- **The end of a comment stands once in it**, where it is closed. -/
theorem Says.eq_append_end_iff {remarks : List (Option String)} {inside before after : String}
    (hwords : Says remarks inside) :
    "/* " ++ inside ++ " */ " = before ++ "*/" ++ after ↔
      before = "/* " ++ inside ++ " " ∧ after = " " := by
  constructor
  · intro h
    have hopen : ¬ ['*', '/'] <:+: '/' :: '*' :: ' ' :: (inside.toList ++ [' ']) := by
      rw [List.infix_cons_iff, List.infix_cons_iff]
      rintro (hslash | hstar | hinfix)
      · exact absurd (List.cons_prefix_cons.1 hslash).1 (by decide)
      · have hblank := (List.cons_prefix_cons.1 hstar).2
        exact absurd (List.cons_prefix_cons.1 hblank).1 (by decide)
      · exact hwords.spaced_unclosed hinfix
    have hnowhere : Text.Nowhere (['*', '/'] <+: ·) ('/' :: '*' :: ' ' :: (inside.toList ++ [' ']))
        ['*', '/', ' '] := Text.nowhere_of_borderless (by decide) hopen (by simp)
    have hlist : ('/' :: '*' :: ' ' :: (inside.toList ++ [' '])) ++ ['*', '/', ' '] =
        before.toList ++ ['*', '/'] ++ after.toList := by
      simpa using congrArg String.toList h
    obtain ⟨t, hbefore, hrest⟩ := Text.exists_eq_append_of_nowhere hnowhere hlist
    -- behind its end the comment is a blank, and too short for a second one
    have hlength := congrArg List.length hrest
    simp only [List.length_append, List.length_cons, List.length_nil] at hlength
    rcases t with _ | ⟨c, _ | ⟨d, t⟩⟩
    · rw [List.append_nil] at hbefore
      refine ⟨String.toList_injective ?_, String.toList_injective ?_⟩
      · simp [hbefore]
      · simpa using hrest.symm
    · simp at hrest
    · simp only [List.length_cons] at hlength
      omega
  · rintro ⟨rfl, rfl⟩
    simp [String.append_assoc]

/-- The reader takes the comment of a site for a comment, and stands in code
behind it. -/
theorem partsFrom_siteComment (site : LoadSite) (message : String) (v : List Char) :
    partsFrom .code (((site.siteComment? message).getD "").toList ++ v) =
      asComment ((site.siteComment? message).getD "").toList ++ partsFrom .code v := by
  rcases leadingComment_cases site message with ⟨hnone, -⟩ | ⟨inside, hsome, -, hwords⟩
  · rw [hnone]
    rfl
  · have hread := partsFrom_comment hwords.spaced_unclosed v
    rw [hsome]
    simpa using hread

/-- **No remark ends the comment of a site.** The comment is empty where
message, name and reason are missing or empty. Otherwise the end of a comment
stands in it once, where it is closed. In the expression of the site the
reader takes the comment, and nothing else, for a comment: what stands before
and behind it is code, and depends on the bundles alone. -/
theorem comment_closed_once (site : LoadSite) (g : BundleGraph) (message : String) :
    (site.leadingComment message = "" ↔
      message = "" ∧ site.chunkName.getD "" = "" ∧ site.chunkReason.getD "" = "") ∧
    (site.leadingComment message ≠ "" → ∃ c, site.leadingComment message = "/* " ++ c ++ " */ " ∧
      ∀ before after, site.leadingComment message = before ++ "*/" ++ after ↔
        before = "/* " ++ c ++ " " ∧ after = " ") ∧
    ∃ gap, (gap = "" ∨ gap = " ") ∧
      partsFrom .code (site.render g message).toList =
        asCode (beforeComment (site.toLoad g) site.originBundles).toList ++
          asComment (Text.trim (site.leadingComment message).toList) ++
          asCode (gap ++ afterComment (site.toLoad g) site.originBundles).toList := by
  refine ⟨leadingComment_eq_empty_iff, fun hsaid => ?_, ?_⟩
  · rcases leadingComment_cases site message with ⟨-, hempty⟩ | ⟨inside, -, hcomment, hwords⟩
    · exact absurd hempty hsaid
    · refine ⟨inside, hcomment, fun before after => ?_⟩
      rw [hcomment]
      exact hwords.eq_append_end_iff
  · obtain ⟨gap, hgap, hrender⟩ := exists_render_eq site g message
    have hblank : IsCode gap.toList := by
      rcases hgap with rfl | rfl <;> exact isCode_of_plain (by decide)
    have hbehind : partsFrom .code (gap ++ afterComment (site.toLoad g) site.originBundles).toList =
        asCode (gap ++ afterComment (site.toLoad g) site.originBundles).toList := by
      have h := (hblank.append (isCode_afterComment (site.toLoad g) site.originBundles)) []
      rwa [partsFrom, List.append_nil, List.append_nil, ← String.toList_append] at h
    refine ⟨gap, hgap, ?_⟩
    rw [hrender, String.toList_append, String.toList_append, List.append_assoc,
      isCode_beforeComment, partsFrom_siteComment, hbehind, trim_leadingComment, List.append_assoc]

-- taking an end apart leaves no other one at the seams
example : (⟨some "**//", none, [], []⟩ : LoadSite).leadingComment "*/ eval() /*" =
    "/* * / eval() /* | ** // */ " := by cbv

end LoadSite

end SplitBuild
