import SplitBuild.Json.Printer
import SplitBuild.Json.Reader
import SplitBuild.Proofs.Text.Occurrence
/-!
# Quoted texts

Inside its quotes a text is written character by character. An escape
begins with a backslash, and what follows it is the character itself or
one of a few letters and digits (`escapeChar_cases`). So each character is
read back on its own, in front of any rest (`pieces?_escapeChar`), and
**every text is read back from its quoted form** (`Value.read?_quote`). A
pattern without a backslash stands in the escaped text only where it
stands in the text itself (`not_infix_escaped`).
-/

namespace SplitBuild

namespace Json

/-- The characters that are escaped with a letter. -/
def lettered : List Char := ['"', '\\', '\x08', '\x0c', '\n', '\r', '\t']

/-- The letters and digits that follow the backslash of a control. -/
def controlLetters : List Char := "bfnrtu0123456789abcdef".toList

theorem escapeChar_of_lettered {c : Char} (h : c ∈ lettered) :
    ∃ letter ∈ ['"', '\\', 'b', 'f', 'n', 'r', 't'], escapeChar c = ['\\', letter] ∧
      Reader.unescape? letter = some c ∧ (letter = c ∨ letter ∈ controlLetters) := by
  simp only [lettered, List.mem_cons, List.not_mem_nil, or_false] at h
  rcases h with rfl | rfl | rfl | rfl | rfl | rfl | rfl
  all_goals exact ⟨_, by decide, rfl, rfl, by decide⟩

theorem escapeChar_of_control {c : Char} (h : c ∉ lettered) (hcontrol : c.toNat < 0x20) :
    escapeChar c = ['\\', 'u', '0', '0', hexDigit (c.toNat / 16), hexDigit (c.toNat % 16)] := by
  simp only [lettered, List.mem_cons, List.not_mem_nil, or_false, not_or] at h
  simp only [escapeChar, h, if_false, if_pos hcontrol]

theorem escapeChar_of_plain {c : Char} (h : c ∉ lettered) (hplain : 0x20 ≤ c.toNat) :
    escapeChar c = [c] := by
  simp only [lettered, List.mem_cons, List.not_mem_nil, or_false, not_or] at h
  simp only [escapeChar, h, if_false, if_neg (Nat.not_lt.2 hplain)]

theorem hexDigit_mem_controlLetters {n : Nat} (h : n < 16) : hexDigit n ∈ controlLetters := by
  revert n
  decide

/-- **What stands for a character**: the character alone, or a backslash,
behind which stands the character itself or letters and digits. -/
theorem escapeChar_cases (c : Char) :
    escapeChar c = [c] ∨ escapeChar c = ['\\', c] ∨
      ∃ tail, escapeChar c = '\\' :: tail ∧ ∀ d ∈ tail, d ∈ controlLetters := by
  by_cases h : c ∈ lettered
  · obtain ⟨letter, -, hescape, -, hletter⟩ := escapeChar_of_lettered h
    rcases hletter with rfl | hletter
    · exact .inr (.inl hescape)
    · exact .inr (.inr ⟨[letter], hescape, by simpa using hletter⟩)
  · rcases Nat.lt_or_ge c.toNat 0x20 with hcontrol | hplain
    · refine .inr (.inr ⟨_, escapeChar_of_control h hcontrol, ?_⟩)
      have hhigh := hexDigit_mem_controlLetters (show c.toNat / 16 < 16 by omega)
      have hlow := hexDigit_mem_controlLetters (show c.toNat % 16 < 16 by omega)
      simp only [List.mem_cons, List.not_mem_nil, or_false, forall_eq_or_imp, forall_eq]
      exact ⟨by decide, by decide, by decide, hhigh, hlow⟩
    · exact .inl (escapeChar_of_plain h hplain)

/-- A text of characters that need no escape is written as it is. -/
theorem flatMap_escapeChar_eq_self {s : List Char}
    (h : ∀ c ∈ s, c ∉ lettered ∧ 0x20 ≤ c.toNat) : s.flatMap escapeChar = s := by
  induction s with
  | nil => rfl
  | cons c cs ih =>
    obtain ⟨hletter, hplain⟩ := h c List.mem_cons_self
    rw [List.flatMap_cons, escapeChar_of_plain hletter hplain,
      ih fun d hd => h d (List.mem_cons_of_mem _ hd)]
    rfl

/-! ## Reading back -/

namespace Reader

/-- What a character is read as once it is quoted. A control that has no
letter is read as the unit it is written as. -/
def pieceOf (c : Char) : Piece :=
  if c.toNat < 0x20 ∧ c ∉ lettered then .unit c.toNat else .char c

/-- The four digits of a control name its unit. -/
theorem unit?_hexDigit {n : Nat} (h : n < 0x20) :
    unit? '0' '0' (hexDigit (n / 16)) (hexDigit (n % 16)) = some n := by
  revert n
  decide

/-- **A quoted character is read back**, whatever follows it. -/
theorem pieces?_escapeChar (c : Char) (rest : List Char) :
    pieces? (escapeChar c ++ rest) = (pieces? rest).map fun p => (pieceOf c :: p.1, p.2) := by
  by_cases h : c ∈ lettered
  · obtain ⟨letter, hmem, hescape, hletter, -⟩ := escapeChar_of_lettered h
    have hpiece : pieceOf c = .char c := if_neg fun hc => hc.2 h
    have hu : letter ≠ 'u' := by
      rintro rfl
      revert hmem
      decide
    rw [hescape, hpiece, List.cons_append, List.singleton_append, pieces?, hletter]
    · cases pieces? rest <;> rfl
    · exact fun _ _ _ _ _ hletter _ => hu hletter
  · rcases Nat.lt_or_ge c.toNat 0x20 with hcontrol | hplain
    · have hpiece : pieceOf c = .unit c.toNat := if_pos ⟨hcontrol, h⟩
      simp only [escapeChar_of_control h hcontrol, List.cons_append, List.nil_append, pieces?,
        unit?_hexDigit hcontrol, hpiece]
      cases pieces? rest <;> rfl
    · have hpiece : pieceOf c = .char c := if_neg fun hc => by omega
      have hquote : c ≠ '"' := by
        rintro rfl
        exact h (by decide)
      have hslash : c ≠ '\\' := by
        rintro rfl
        exact h (by decide)
      rw [escapeChar_of_plain h hplain, hpiece, List.singleton_append, pieces?]
      · rw [if_neg (by simp [hslash, hplain])]
      · exact hquote
      · exact fun _ _ _ _ _ hc => absurd hc hslash
      · exact fun _ _ hc => absurd hc hslash

theorem pieces?_escaped (s rest : List Char) :
    pieces? (s.flatMap escapeChar ++ '"' :: rest) = some (s.map pieceOf, rest) := by
  induction s with
  | nil => rfl
  | cons c cs ih =>
    rw [List.flatMap_cons, List.append_assoc, pieces?_escapeChar, ih]
    rfl

/-- The unit of a control is half of no pair. -/
theorem chars?_unit_cons {n : Nat} (h : n < 0x20) (ps : List Piece) :
    chars? (.unit n :: ps) = (chars? ps).map (Char.ofNat n :: ·) := by
  have hhigh : isHighHalf n = false := by simp [isHighHalf]; omega
  have hlow : isLowHalf n = false := by simp [isLowHalf]; omega
  match ps with
  | [] => simp [chars?, hhigh, hlow]
  | .char c :: ps => simp [chars?, hhigh, hlow]
  | .unit m :: ps => simp [chars?, hhigh, hlow]

theorem chars?_map_pieceOf (s : List Char) : chars? (s.map pieceOf) = some s := by
  induction s with
  | nil => rfl
  | cons c cs ih =>
    rw [List.map_cons, pieceOf]
    split
    · rename_i hcontrol
      rw [chars?_unit_cons hcontrol.1, ih, Char.ofNat_toNat]
      rfl
    · rw [chars?, ih]
      rfl

/-- **A text behind its opening quote is read**, whatever follows it. -/
theorem text?_quoted (s : String) (rest : List Char) :
    text? (s.toList.flatMap escapeChar ++ '"' :: rest) = some (some s, rest) := by
  rw [text?, pieces?_escaped, Option.map_some, chars?_map_pieceOf, Option.map_some,
    String.ofList_toList]

end Reader

/-- **Every text is read back from its quoted form.** -/
theorem Value.read?_quote (s : String) : Value.read? (String.ofList (quote s)) = some (.string s) := by
  have htext := Reader.text?_quoted s []
  have hdoc : Document.read? (String.ofList (quote s)) = some (.string s) := by
    rw [Document.read?, String.toList_ofList, quote]
    simp only [Reader.skip, Reader.allowance, List.dropWhile_cons, Reader.isSpace]
    simp only [Char.reduceEq, decide_false, Bool.or_false, Bool.false_eq_true, if_false,
      Reader.document?, htext, Option.map_some, Reader.ofText, List.dropWhile_nil, List.isEmpty_nil,
      if_true]
    rfl
  rw [Value.read?, hdoc]
  rfl

/-! ## What stands in a quoted text -/

theorem newline_not_mem_escaped (s : List Char) : '\n' ∉ s.flatMap escapeChar := by
  intro h
  obtain ⟨c, -, hc⟩ := List.mem_flatMap.1 h
  by_cases hself : c = '\n'
  · subst hself
    revert hc
    decide
  · rcases escapeChar_cases c with h | h | ⟨tail, h, hletters⟩
    · rw [h, List.mem_singleton] at hc
      exact hself hc.symm
    · rw [h] at hc
      simp only [List.mem_cons, Char.reduceEq, List.not_mem_nil, or_false, false_or] at hc
      exact hself hc.symm
    · rw [h, List.mem_cons] at hc
      rcases hc with hc | hc
      · cases hc
      · exact absurd (hletters _ hc) (by decide)

/-- A pattern without a backslash that begins an escaped text begins the
text. -/
theorem prefix_of_prefix_escaped {pat s : List Char} (hpat : '\\' ∉ pat)
    (h : pat <+: s.flatMap escapeChar) : pat <+: s := by
  induction pat generalizing s with
  | nil => exact List.nil_prefix
  | cons p pat ih =>
    have hp : p ≠ '\\' := fun hp => hpat (by simp [hp])
    cases s with
    | nil => simp at h
    | cons c cs =>
      rw [List.flatMap_cons] at h
      rcases escapeChar_cases c with hself | hself | ⟨tail, htail, -⟩
      · rw [hself, List.singleton_append, List.cons_prefix_cons] at h
        have htl := ih (fun hmem => hpat (List.mem_cons_of_mem _ hmem)) h.2
        exact List.cons_prefix_cons.2 ⟨h.1, htl⟩
      · rw [hself, List.cons_append, List.cons_prefix_cons] at h
        exact absurd h.1 hp
      · rw [htail, List.cons_append, List.cons_prefix_cons] at h
        exact absurd h.1 hp

/-- **A pattern without a backslash stands in an escaped text only where it
stands in the text**, if no control is escaped by what it begins with. -/
theorem not_infix_escaped {p : Char} {pat s : List Char} (hp : p ∉ controlLetters)
    (hpat : '\\' ∉ p :: pat) (h : ¬ p :: pat <:+: s) : ¬ p :: pat <:+: s.flatMap escapeChar := by
  have hslash : p ≠ '\\' := fun hp => hpat (by simp [hp])
  have hnowhere : Text.Nowhere (p :: pat <+: ·) (s.flatMap escapeChar) [] := by
    induction s with
    | nil => trivial
    | cons c cs ih =>
      have hcs := ih fun hi => h (hi.trans (List.suffix_cons c cs).isInfix)
      -- where the pattern begins with what stands for `c`, it begins with `c`
      have hc : ¬ p :: pat <+: c :: cs.flatMap escapeChar := by
        intro hpre
        obtain ⟨rfl, htl⟩ := List.cons_prefix_cons.1 hpre
        have htl := prefix_of_prefix_escaped (fun hmem => hpat (List.mem_cons_of_mem _ hmem)) htl
        exact h (List.cons_prefix_cons.2 ⟨rfl, htl⟩).isInfix
      rw [List.flatMap_cons, Text.nowhere_append, List.append_nil]
      refine ⟨?_, hcs⟩
      rcases escapeChar_cases c with hself | hself | ⟨tail, htail, hletters⟩
      · rw [hself]
        exact ⟨hc, trivial⟩
      · rw [hself]
        exact ⟨fun hpre => hslash (List.cons_prefix_cons.1 hpre).1, hc, trivial⟩
      · rw [htail]
        refine Text.nowhere_of_not_mem fun hmem => ?_
        rcases List.mem_cons.1 hmem with hmem | hmem
        · exact hslash hmem
        · exact hp (hletters p hmem)
  exact Text.not_infix_of_nowhere (List.cons_ne_nil _ _) hnowhere

end Json

end SplitBuild
