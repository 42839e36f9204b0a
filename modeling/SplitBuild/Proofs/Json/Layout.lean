import SplitBuild.Proofs.Json.Numerals
import SplitBuild.Proofs.Json.Quoting
/-!
# Layouts

The compact and the indented form of a value are two layouts (`Layout`):
the same tokens, with blanks of their own in front of an item and behind a
colon. The reader passes over the blanks, so what is read of either is the
document of the value (`Layout.document?_chars`), provided that every
number of the value is read back (`Value.NumbersReadBack`).

The allowance of steps is never spent before the text is: a document takes
no more steps than it has characters.
-/

namespace SplitBuild

namespace Json

/-! ## Numbers -/

namespace Document

mutual

/-- The numbers of a document, in order. -/
def numbers : Document → List Number
  | .number n => [n]
  | .array items => numbersOfItems items
  | .object entries => numbersOfEntries entries
  | _ => []

def numbersOfItems : List Document → List Number
  | [] => []
  | d :: ds => numbers d ++ numbersOfItems ds

def numbersOfEntries : List (Option String × Document) → List Number
  | [] => []
  | (_, d) :: es => numbers d ++ numbersOfEntries es

end

end Document

namespace Value

/-- The numbers of a value, in order. -/
def numbers (v : Value) : List Number := (Document.ofValue v).numbers

/-- Every number of a value is read back from what is written for it. -/
def NumbersReadBack (v : Value) : Prop := ∀ n ∈ v.numbers, n.ReadsBack

end Value

/-! ## Layouts -/

/-- The blanks of a written value. -/
structure Layout where
  /-- What stands in front of an item, by its level, and of the bracket
  that closes a level. -/
  gap : Nat → List Char
  /-- What stands between a colon and its value. -/
  behindColon : List Char
  gap_blank : ∀ level, ∀ c ∈ gap level, Reader.isSpace c
  behindColon_blank : ∀ c ∈ behindColon, Reader.isSpace c

namespace Layout

mutual

/-- A value at a level. -/
def chars (l : Layout) (level : Nat) : Value → List Char
  | .null => ['n', 'u', 'l', 'l']
  | .bool true => ['t', 'r', 'u', 'e']
  | .bool false => ['f', 'a', 'l', 's', 'e']
  | .number n => n.render
  | .string s => quote s
  | .array [] => ['[', ']']
  | .array (v :: vs) =>
    '[' :: (l.gap (level + 1) ++ (chars l (level + 1) v ++ items l level vs))
  | .object [] => ['{', '}']
  | .object ((k, v) :: es) =>
    '{' :: (l.gap (level + 1) ++ (quote k ++ ':' ::
      (l.behindColon ++ (chars l (level + 1) v ++ entries l level es))))

/-- The rest of an array after an item. -/
def items (l : Layout) (level : Nat) : List Value → List Char
  | [] => l.gap level ++ [']']
  | v :: vs => ',' :: (l.gap (level + 1) ++ (chars l (level + 1) v ++ items l level vs))

/-- The rest of an object after an entry. -/
def entries (l : Layout) (level : Nat) : List (String × Value) → List Char
  | [] => l.gap level ++ ['}']
  | (k, v) :: es =>
    ',' :: (l.gap (level + 1) ++ (quote k ++ ':' ::
      (l.behindColon ++ (chars l (level + 1) v ++ entries l level es))))

end

/-- The layout without blanks. -/
def compact : Layout where
  gap _ := []
  behindColon := []
  gap_blank := by simp
  behindColon_blank := by simp

/-- The layout with one entry a line. -/
def pretty : Layout where
  gap := Value.newline
  behindColon := [' ']
  gap_blank level c hc := by
    rcases List.mem_cons.1 hc with rfl | hc
    · rfl
    · obtain rfl := List.eq_of_mem_replicate hc
      rfl
  behindColon_blank c hc := by
    obtain rfl := List.mem_singleton.1 hc
    rfl

theorem compact_gap (level : Nat) : compact.gap level = [] := rfl

theorem compact_behindColon : compact.behindColon = [] := rfl

theorem pretty_gap (level : Nat) : pretty.gap level = Value.newline level := rfl

theorem pretty_behindColon : pretty.behindColon = [' '] := rfl

mutual

theorem chars_compact (level : Nat) : (v : Value) → compact.chars level v = v.compactChars
  | .null | .bool true | .bool false | .number _ | .string _ | .array [] | .object [] => by
    simp only [chars, Value.compactChars]
  | .array (v :: vs) => by
    simp only [chars, Value.compactChars, chars_compact (level + 1) v, items_compact level vs,
      compact_gap, List.nil_append]
  | .object ((k, v) :: es) => by
    simp only [chars, Value.compactChars, chars_compact (level + 1) v, entries_compact level es,
      compact_gap, compact_behindColon, List.nil_append]

theorem items_compact (level : Nat) : (vs : List Value) →
    compact.items level vs = Value.compactItems vs
  | [] => by simp only [items, Value.compactItems, compact_gap, List.nil_append]
  | v :: vs => by
    simp only [items, Value.compactItems, chars_compact (level + 1) v, items_compact level vs,
      compact_gap, List.nil_append]

theorem entries_compact (level : Nat) : (es : List (String × Value)) →
    compact.entries level es = Value.compactEntries es
  | [] => by simp only [entries, Value.compactEntries, compact_gap, List.nil_append]
  | (k, v) :: es => by
    simp only [entries, Value.compactEntries, chars_compact (level + 1) v,
      entries_compact level es, compact_gap, compact_behindColon, List.nil_append]

end

mutual

theorem chars_pretty (level : Nat) : (v : Value) → pretty.chars level v = v.prettyChars level
  | .null | .bool true | .bool false | .number _ | .string _ | .array [] | .object [] => by
    simp only [chars, Value.prettyChars]
  | .array (v :: vs) => by
    simp only [chars, Value.prettyChars, chars_pretty (level + 1) v, items_pretty level vs,
      pretty_gap]
  | .object ((k, v) :: es) => by
    simp only [chars, Value.prettyChars, chars_pretty (level + 1) v, entries_pretty level es,
      pretty_gap, pretty_behindColon, List.singleton_append]

theorem items_pretty (level : Nat) : (vs : List Value) →
    pretty.items level vs = Value.prettyItems level vs
  | [] => by simp only [items, Value.prettyItems, pretty_gap]
  | v :: vs => by
    simp only [items, Value.prettyItems, chars_pretty (level + 1) v, items_pretty level vs,
      pretty_gap]

theorem entries_pretty (level : Nat) : (es : List (String × Value)) →
    pretty.entries level es = Value.prettyEntries level es
  | [] => by simp only [entries, Value.prettyEntries, pretty_gap]
  | (k, v) :: es => by
    simp only [entries, Value.prettyEntries, chars_pretty (level + 1) v, entries_pretty level es,
      pretty_gap, pretty_behindColon, List.singleton_append]

end

/-! ## Where a value begins and ends -/

variable {l : Layout} {level steps : Nat} {v : Value} {s t u rest : List Char}

/-- The reader passes over blanks to what begins with none. -/
theorem skip_append {blanks : List Char} {c : Char} (hblanks : ∀ d ∈ blanks, Reader.isSpace d)
    (hc : Reader.isSpace c = false) : Reader.skip (blanks ++ c :: s) = c :: s := by
  rw [Reader.skip, List.dropWhile_append_of_pos hblanks, List.dropWhile_cons_of_neg]
  rw [hc]
  exact Bool.false_ne_true

/-- A numeral begins like no other token. -/
theorem not_mem_of_digit? {c : Char} (h : c = '-' ∨ (Reader.digit? c).isSome) :
    c ∉ [' ', '\n', '\t', '\r', '"', '[', ']', '{', 'n', 't', 'f'] := by
  intro hmem
  simp only [List.mem_cons, List.not_mem_nil, or_false] at hmem
  rcases hmem with rfl | rfl | rfl | rfl | rfl | rfl | rfl | rfl | rfl | rfl | rfl
  all_goals exact absurd h (by decide)

/-- What is written for a value begins with its first token. -/
theorem exists_cons_of_chars (h : v.NumbersReadBack) (l : Layout) (level : Nat) :
    ∃ c tail, l.chars level v = c :: tail ∧ Reader.isSpace c = false ∧ c ≠ ']' := by
  match v with
  | .null | .bool true | .bool false | .string _ | .array [] | .object []
  | .array (_ :: _) | .object (_ :: _) => exact ⟨_, _, rfl, by decide, by decide⟩
  | .number n =>
    obtain ⟨numeral, hread, -⟩ := h n List.mem_cons_self
    obtain ⟨c, tail, hcons, hc⟩ := Reader.exists_cons_of_numeral? hread
    have hother := not_mem_of_digit? hc
    simp only [List.mem_cons, List.not_mem_nil, or_false, not_or] at hother
    exact ⟨c, tail, hcons, by simp [Reader.isSpace, hother], by simp [hother]⟩

theorem stops_gap (h : Reader.Stops s) : Reader.Stops (l.gap level ++ s) := by
  cases hgap : l.gap level with
  | nil => exact h
  | cons c tail =>
    exact Reader.stops_cons (.inl (l.gap_blank level c (hgap ▸ List.mem_cons_self))) _

theorem stops_items (l : Layout) (level : Nat) (vs : List Value) (rest : List Char) :
    Reader.Stops (l.items level vs ++ rest) := by
  cases vs with
  | nil =>
    rw [items, List.append_assoc]
    exact stops_gap (Reader.stops_cons (.inr (by simp)) _)
  | cons v vs => exact Reader.stops_cons (.inr (by simp)) _

theorem stops_entries (l : Layout) (level : Nat) (es : List (String × Value)) (rest : List Char) :
    Reader.Stops (l.entries level es ++ rest) := by
  cases es with
  | nil =>
    rw [entries, List.append_assoc]
    exact stops_gap (Reader.stops_cons (.inr (by simp)) _)
  | cons e es => exact Reader.stops_cons (.inr (by simp)) _

/-! ## Reading the parts -/

theorem document?_of_numeral? {numeral : Numeral} (hs : Reader.numeral? s = some (numeral, rest)) :
    Reader.document? (steps + 1) s = some (Reader.ofNumber numeral.number?, rest) := by
  obtain ⟨c, tail, rfl, hc⟩ := Reader.exists_cons_of_numeral? hs
  have hother := not_mem_of_digit? hc
  simp only [List.mem_cons, List.not_mem_nil, or_false, not_or] at hother
  rw [Reader.document?, hs]
  · rfl
  all_goals
    intros
    simp_all

/-- The reader passes over blanks in front of a value. -/
theorem skip_chars {blanks : List Char} (h : v.NumbersReadBack)
    (hblanks : ∀ c ∈ blanks, Reader.isSpace c) (l : Layout) (level : Nat) (s : List Char) :
    Reader.skip (blanks ++ (l.chars level v ++ s)) = l.chars level v ++ s := by
  obtain ⟨c, tail, hcons, hc, -⟩ := exists_cons_of_chars h l level
  rw [hcons, List.cons_append, skip_append hblanks hc]

theorem length_chars_pos (h : v.NumbersReadBack) (l : Layout) (level : Nat) :
    0 < (l.chars level v).length := by
  obtain ⟨c, tail, hcons, -⟩ := exists_cons_of_chars h l level
  rw [hcons]
  exact Nat.succ_pos _

theorem length_items_pos (l : Layout) (level : Nat) (vs : List Value) :
    0 < (l.items level vs).length := by
  cases vs <;> simp [items]

theorem length_entries_pos (l : Layout) (level : Nat) (es : List (String × Value)) :
    0 < (l.entries level es).length := by
  cases es <;> simp [entries]

/-- An array that does not close at once is read item by item. -/
theorem document?_array {c : Char} {ds : List Document} (hskip : Reader.skip s = c :: t)
    (hc : c ≠ ']') (hs : Reader.items? steps (c :: t) = some (ds, rest)) :
    Reader.document? (steps + 1) ('[' :: s) = some (.array ds, rest) := by
  rw [Reader.document?, hskip]
  split
  · rename_i heq
    exact absurd (List.cons.inj heq).1 hc
  · rw [hs]
    rfl

theorem items?_last {d : Document} (hd : Reader.document? steps s = some (d, t))
    (hskip : Reader.skip t = ']' :: rest) :
    Reader.items? (steps + 1) s = some ([d], rest) := by
  simp only [Reader.items?, hd, Option.bind_eq_bind, Option.bind_some, hskip]
  rfl

theorem items?_more {d : Document} {ds : List Document}
    (hd : Reader.document? steps s = some (d, t)) (hskip : Reader.skip t = ',' :: u)
    (hds : Reader.items? steps (Reader.skip u) = some (ds, rest)) :
    Reader.items? (steps + 1) s = some (d :: ds, rest) := by
  simp only [Reader.items?, hd, Option.bind_eq_bind, Option.bind_some, hskip, hds]
  rfl

/-- An object that does not close at once is read entry by entry. -/
theorem document?_object {es : List (Option String × Document)} (hskip : Reader.skip s = '"' :: t)
    (hs : Reader.entries? steps ('"' :: t) = some (es, rest)) :
    Reader.document? (steps + 1) ('{' :: s) = some (.object es, rest) := by
  rw [Reader.document?, hskip]
  split
  · rename_i heq
    exact absurd (List.cons.inj heq).1 (by decide)
  · rw [hs]
    rfl

theorem entries?_last {k : String} {d : Document}
    (hd : Reader.document? steps (Reader.skip s) = some (d, t))
    (hskip : Reader.skip t = '}' :: rest) :
    Reader.entries? (steps + 1) (quote k ++ ':' :: s) = some ([(some k, d)], rest) := by
  have hcolon : Reader.skip (':' :: s) = ':' :: s := rfl
  simp only [quote, List.cons_append, List.append_assoc, List.nil_append, Reader.entries?,
    Reader.text?_quoted, hcolon, hd, Option.bind_eq_bind, Option.bind_some, hskip]
  rfl

theorem entries?_more {k : String} {d : Document} {es : List (Option String × Document)}
    (hd : Reader.document? steps (Reader.skip s) = some (d, t))
    (hskip : Reader.skip t = ',' :: u)
    (hes : Reader.entries? steps (Reader.skip u) = some (es, rest)) :
    Reader.entries? (steps + 1) (quote k ++ ':' :: s) = some ((some k, d) :: es, rest) := by
  have hcolon : Reader.skip (':' :: s) = ':' :: s := rfl
  simp only [quote, List.cons_append, List.append_assoc, List.nil_append, Reader.entries?,
    Reader.text?_quoted, hcolon, hd, Option.bind_eq_bind, Option.bind_some, hskip, hes]
  rfl

mutual

/-- **What is written for a value is read as its document**, in front of
any rest that no numeral goes on with. -/
theorem document?_chars (l : Layout) (level : Nat) : (v : Value) → v.NumbersReadBack →
    ∀ {steps : Nat} {rest : List Char}, (l.chars level v).length ≤ steps → Reader.Stops rest →
      Reader.document? steps (l.chars level v ++ rest) = some (.ofValue v, rest)
  | .null, _, steps + 1, rest, _, _ | .bool true, _, steps + 1, rest, _, _
  | .bool false, _, steps + 1, rest, _, _ | .array [], _, steps + 1, rest, _, _
  | .object [], _, steps + 1, rest, _, _ => rfl
  | .number n, h, steps, rest, hsteps, hrest => by
    obtain ⟨numeral, hread, hnumber⟩ := h n List.mem_cons_self
    obtain ⟨c, tail, hcons, -⟩ := Reader.exists_cons_of_numeral? hread
    obtain ⟨steps, rfl⟩ : ∃ k, steps = k + 1 := by
      simp only [chars, hcons, List.length_cons] at hsteps
      exact ⟨steps - 1, by omega⟩
    rw [chars, document?_of_numeral? (Reader.numeral?_append hrest hread), hnumber]
    rfl
  | .string s, _, steps + 1, rest, _, _ => by
    simp only [chars, quote, List.cons_append, List.append_assoc, List.nil_append,
      Reader.document?, Reader.text?_quoted, Option.map_some]
    rfl
  | .array (v :: vs), h, steps, rest, hsteps, _ => by
    have hv : v.NumbersReadBack := fun n hn => h n (List.mem_append_left _ hn)
    have hvpos := length_chars_pos hv l (level + 1)
    have hpos := length_items_pos l level vs
    simp only [chars, List.length_cons, List.length_append] at hsteps
    obtain ⟨steps, rfl⟩ : ∃ k, steps = k + 2 := ⟨steps - 2, by omega⟩
    have hdoc := document?_chars l (level + 1) v hv
      (show (l.chars (level + 1) v).length ≤ steps by omega) (stops_items l level vs rest)
    have hitems := items?_items l level vs (fun n hn => h n (List.mem_append_right _ hn)) hdoc
      (by omega)
    have hskip := skip_chars hv (l.gap_blank (level + 1)) l (level + 1) (l.items level vs ++ rest)
    obtain ⟨c, tail, hcons, -, hbracket⟩ := exists_cons_of_chars hv l (level + 1)
    rw [hcons, List.cons_append] at hitems hskip
    simp only [chars, hcons, List.cons_append, List.append_assoc]
    exact document?_array hskip hbracket hitems
  | .object ((k, v) :: es), h, steps, rest, hsteps, _ => by
    have hv : v.NumbersReadBack := fun n hn => h n (List.mem_append_left _ hn)
    have hvpos := length_chars_pos hv l (level + 1)
    have hpos := length_entries_pos l level es
    simp only [chars, List.length_cons, List.length_append] at hsteps
    obtain ⟨steps, rfl⟩ : ∃ k, steps = k + 2 := ⟨steps - 2, by omega⟩
    have hdoc := document?_chars l (level + 1) v hv
      (show (l.chars (level + 1) v).length ≤ steps by omega) (stops_entries l level es rest)
    rw [← skip_chars hv l.behindColon_blank] at hdoc
    have hentries := entries?_entries l level es (fun n hn => h n (List.mem_append_right _ hn))
      (k := k) hdoc (by omega)
    simp only [chars, List.cons_append, List.append_assoc]
    exact document?_object (skip_append (l.gap_blank (level + 1)) rfl) hentries

theorem items?_items (l : Layout) (level : Nat) : (vs : List Value) →
    (∀ n ∈ Document.numbersOfItems (Document.ofValues vs), n.ReadsBack) →
    ∀ {steps : Nat} {s rest : List Char} {d : Document},
      Reader.document? steps s = some (d, l.items level vs ++ rest) →
      (l.items level vs).length ≤ steps →
      Reader.items? (steps + 1) s = some (d :: Document.ofValues vs, rest)
  | [], _, steps, s, rest, d, hd, _ => by
    refine items?_last hd ?_
    rw [items, List.append_assoc]
    exact skip_append (l.gap_blank level) rfl
  | v :: vs, h, steps, s, rest, d, hd, hsteps => by
    have hv : v.NumbersReadBack := fun n hn => h n (List.mem_append_left _ hn)
    have hvpos := length_chars_pos hv l (level + 1)
    have hpos := length_items_pos l level vs
    simp only [items, List.length_cons, List.length_append] at hsteps
    obtain ⟨steps, rfl⟩ : ∃ k, steps = k + 1 := ⟨steps - 1, by omega⟩
    have hdoc := document?_chars l (level + 1) v hv
      (show (l.chars (level + 1) v).length ≤ steps by omega) (stops_items l level vs rest)
    have hitems := items?_items l level vs (fun n hn => h n (List.mem_append_right _ hn)) hdoc
      (by omega)
    rw [← skip_chars hv (l.gap_blank (level + 1))] at hitems
    simp only [items, List.cons_append, List.append_assoc] at hd
    exact items?_more hd rfl hitems

theorem entries?_entries (l : Layout) (level : Nat) : (es : List (String × Value)) →
    (∀ n ∈ Document.numbersOfEntries (Document.ofEntries es), n.ReadsBack) →
    ∀ {steps : Nat} {k : String} {s rest : List Char} {d : Document},
      Reader.document? steps (Reader.skip s) = some (d, l.entries level es ++ rest) →
      (l.entries level es).length ≤ steps →
      Reader.entries? (steps + 1) (quote k ++ ':' :: s) =
        some ((some k, d) :: Document.ofEntries es, rest)
  | [], _, steps, k, s, rest, d, hd, _ => by
    refine entries?_last hd ?_
    rw [entries, List.append_assoc]
    exact skip_append (l.gap_blank level) rfl
  | (j, v) :: es, h, steps, k, s, rest, d, hd, hsteps => by
    have hv : v.NumbersReadBack := fun n hn => h n (List.mem_append_left _ hn)
    have hvpos := length_chars_pos hv l (level + 1)
    have hpos := length_entries_pos l level es
    simp only [entries, List.length_cons, List.length_append] at hsteps
    obtain ⟨steps, rfl⟩ : ∃ k, steps = k + 1 := ⟨steps - 1, by omega⟩
    have hdoc := document?_chars l (level + 1) v hv
      (show (l.chars (level + 1) v).length ≤ steps by omega) (stops_entries l level es rest)
    rw [← skip_chars hv l.behindColon_blank] at hdoc
    have hentries := entries?_entries l level es (fun n hn => h n (List.mem_append_right _ hn))
      (k := j) hdoc (by omega)
    simp only [entries, List.cons_append, List.append_assoc] at hd
    refine entries?_more hd rfl ?_
    rw [quote, List.cons_append, skip_append (l.gap_blank (level + 1)) rfl]
    exact hentries

end

/-! ## Whole texts -/

/-- The text of a value. -/
def text (l : Layout) (v : Value) : String := String.ofList (l.chars 0 v)

theorem text_compact (v : Value) : compact.text v = v.compact := by
  rw [text, chars_compact, Value.compact]

theorem text_pretty (v : Value) : pretty.text v = v.pretty := by
  rw [text, chars_pretty, Value.pretty]

/-- **The text of a value is read as its document**, as deep as documents
go. -/
theorem read?_text (l : Layout) (h : v.NumbersReadBack) :
    Document.read? (l.text v) = some ((Document.ofValue v).clip Document.maxDepth) := by
  have hskip : Reader.skip (l.chars 0 v) = l.chars 0 v := by
    obtain ⟨c, tail, hcons, hc, -⟩ := exists_cons_of_chars h l 0
    rw [hcons]
    exact @skip_append _ [] _ (by simp) hc
  have hdoc : Reader.document? (Reader.allowance (l.chars 0 v)) (l.chars 0 v ++ []) =
      some (.ofValue v, []) :=
    document?_chars l 0 v h (by rw [Reader.allowance]; omega) Reader.stops_nil
  rw [List.append_nil] at hdoc
  simp only [Document.read?, text, String.toList_ofList, hskip, hdoc]
  rfl

end Layout

end Json

end SplitBuild
