import SplitBuild.Json.Printer
import SplitBuild.Json.Reader
/-!
# Numerals in front of a text

A numeral ends where the text goes on with something that no numeral goes
on with (`Reader.Stops`). What is read of a numeral that makes up a whole
text is therefore read of it in front of any such rest
(`Reader.numeral?_append`), and it begins with a minus sign or a digit
(`Reader.exists_cons_of_numeral?`).

A number that is written is read as a numeral, which stands for a number
again. `Number.ReadsBack` says that this is the same one. The integers that
numerals stand for fit sixty-four bits (`Numeral.wellFormed_of_number?`),
and all of these are read back (`Number.readsBack_int`); of a binary64
number it has to be asked, since reading one rounds more than once.
-/

namespace SplitBuild

namespace Json

namespace Reader

variable {s t rest : List Char} {ds : List Nat} {e : Option Int} {isNegative : Bool}
variable {numeral : Numeral}

/-- No numeral goes on with the text. -/
def Stops (rest : List Char) : Prop :=
  ∀ c tail, rest = c :: tail → digit? c = none ∧ c ≠ '.' ∧ c ≠ 'e' ∧ c ≠ 'E'

theorem stops_nil : Stops [] := by
  intro c tail h
  cases h

theorem stops_cons {c : Char} (h : isSpace c ∨ c ∈ [',', ']', '}']) (tail : List Char) :
    Stops (c :: tail) := by
  intro d tail' heq
  obtain ⟨rfl, -⟩ := List.cons.inj heq
  simp only [isSpace, Bool.or_eq_true, decide_eq_true_eq, List.mem_cons, List.not_mem_nil,
    or_false, or_assoc] at h
  rcases h with rfl | rfl | rfl | rfl | rfl | rfl | rfl <;> decide

theorem digits_of_stops (h : Stops rest) : digits rest = ([], rest) := by
  cases rest with
  | nil => rfl
  | cons c tail => rw [digits, (h c tail rfl).1]

theorem digits_append (h : Stops rest) :
    digits (s ++ rest) = ((digits s).1, (digits s).2 ++ rest) := by
  induction s with
  | nil => exact digits_of_stops h
  | cons c s ih =>
    rw [List.cons_append, digits, digits]
    cases digit? c with
    | none => rfl
    | some d => simp only [ih]

theorem fraction?_append (h : Stops rest) (hs : fraction? s = some (ds, t)) :
    fraction? (s ++ rest) = some (ds, t ++ rest) := by
  cases s with
  | nil =>
    obtain ⟨rfl, rfl⟩ := Prod.mk.inj (Option.some.inj hs)
    cases rest with
    | nil => rfl
    | cons c tail =>
      rw [List.nil_append, fraction?]
      intro rest heq
      exact (h c tail rfl).2.1 (List.cons.inj heq).1
  | cons c s =>
    by_cases hpoint : c = '.'
    · subst hpoint
      simp only [List.cons_append, fraction?, digits_append h] at hs ⊢
      split at hs
      · cases hs
      · rename_i hds
        obtain ⟨rfl, rfl⟩ := Prod.mk.inj (Option.some.inj hs)
        rw [if_neg hds]
    · rw [fraction?] at hs
      · obtain ⟨rfl, rfl⟩ := Prod.mk.inj (Option.some.inj hs)
        rw [List.cons_append, fraction?]
        intro rest heq
        exact hpoint (List.cons.inj heq).1
      · intro rest heq
        exact hpoint (List.cons.inj heq).1

theorem signedExponent?_append (h : Stops rest) (hs : signedExponent? isNegative s = some (e, t)) :
    signedExponent? isNegative (s ++ rest) = some (e, t ++ rest) := by
  simp only [signedExponent?, digits_append h] at hs ⊢
  split at hs
  · cases hs
  · rename_i hds
    obtain ⟨rfl, rfl⟩ := Prod.mk.inj (Option.some.inj hs)
    rw [if_neg hds]

/-- An exponent without a sign begins with neither sign. -/
theorem exponent?_of_unsigned {c d : Char} (hc : c = 'e' ∨ c = 'E') (hd : d ≠ '-' ∧ d ≠ '+') :
    exponent? (c :: d :: s) = signedExponent? false (d :: s) := by
  rcases hc with rfl | rfl
  all_goals
    rw [exponent?]
    · intro rest heq
      exact hd.1 (List.cons.inj heq).1
    · intro rest heq
      exact hd.2 (List.cons.inj heq).1

theorem exponent?_of_stops (h : Stops rest) : exponent? rest = some (none, rest) := by
  cases rest with
  | nil => rfl
  | cons c tail =>
    obtain ⟨-, -, he, hE⟩ := h c tail rfl
    rw [exponent?]
    all_goals
      intros
      simp_all

/-- A text that goes on with no exponent has none. -/
theorem exponent?_of_ne {c : Char} (hc : ¬ (c = 'e' ∨ c = 'E')) :
    exponent? (c :: s) = some (none, c :: s) := by
  obtain ⟨he, hE⟩ := not_or.1 hc
  rw [exponent?]
  all_goals
    intros
    simp_all

theorem exponent?_append (h : Stops rest) (hs : exponent? s = some (e, t)) :
    exponent? (s ++ rest) = some (e, t ++ rest) := by
  cases s with
  | nil =>
    obtain ⟨rfl, rfl⟩ := Prod.mk.inj (Option.some.inj hs)
    exact exponent?_of_stops h
  | cons c s =>
    by_cases hc : c = 'e' ∨ c = 'E'
    · cases s with
      | nil => rcases hc with rfl | rfl <;> cases hs
      | cons d s =>
        by_cases hsign : d = '-' ∨ d = '+'
        · rcases hc with rfl | rfl <;> rcases hsign with rfl | rfl
          all_goals
            simp only [List.cons_append, exponent?] at hs ⊢
            exact signedExponent?_append h hs
        · have hd := not_or.1 hsign
          rw [exponent?_of_unsigned hc hd] at hs
          rw [List.cons_append, List.cons_append, exponent?_of_unsigned hc hd]
          exact signedExponent?_append h hs
    · rw [exponent?_of_ne hc] at hs
      obtain ⟨rfl, rfl⟩ := Prod.mk.inj (Option.some.inj hs)
      exact exponent?_of_ne hc

theorem unsigned?_append (h : Stops rest) (hs : unsigned? isNegative s = some (numeral, t)) :
    unsigned? isNegative (s ++ rest) = some (numeral, t ++ rest) := by
  simp only [unsigned?, digits_append h] at hs ⊢
  split at hs
  · cases hs
  · rename_i hwhole
    obtain ⟨⟨fraction, u⟩, hfraction, hs⟩ := Option.bind_eq_some_iff.1 hs
    obtain ⟨⟨exponent, w⟩, hexponent, hs⟩ := Option.bind_eq_some_iff.1 hs
    obtain ⟨rfl, rfl⟩ := Prod.mk.inj (Option.some.inj hs)
    rw [if_neg hwhole, fraction?_append h hfraction]
    simp only [Option.bind_eq_bind, Option.bind_some, exponent?_append h hexponent]
    rfl

/-- A numeral without a sign begins with a digit. -/
theorem exists_cons_of_unsigned? (hs : unsigned? isNegative s = some (numeral, t)) :
    ∃ c tail, s = c :: tail ∧ (digit? c).isSome := by
  cases s with
  | nil => cases hs
  | cons c tail =>
    refine ⟨c, tail, rfl, ?_⟩
    cases hc : digit? c with
    | some d => rfl
    | none => simp [unsigned?, digits, hc] at hs

theorem numeral?_of_ne {c : Char} (hc : c ≠ '-') : numeral? (c :: s) = unsigned? false (c :: s) := by
  rw [numeral?]
  intro rest heq
  exact hc (List.cons.inj heq).1

/-- A numeral begins with a minus sign or a digit. -/
theorem exists_cons_of_numeral? (hs : numeral? s = some (numeral, t)) :
    ∃ c tail, s = c :: tail ∧ (c = '-' ∨ (digit? c).isSome) := by
  cases s with
  | nil => cases hs
  | cons c tail =>
    refine ⟨c, tail, rfl, ?_⟩
    by_cases hc : c = '-'
    · exact .inl hc
    · rw [numeral?_of_ne hc] at hs
      obtain ⟨d, tail', heq, hd⟩ := exists_cons_of_unsigned? hs
      obtain ⟨rfl, -⟩ := List.cons.inj heq
      exact .inr hd

/-- **A numeral is read in front of a rest as it is read alone.** -/
theorem numeral?_append (h : Stops rest) (hs : numeral? s = some (numeral, t)) :
    numeral? (s ++ rest) = some (numeral, t ++ rest) := by
  obtain ⟨c, tail, rfl, -⟩ := exists_cons_of_numeral? hs
  by_cases hc : c = '-'
  · subst hc
    exact unsigned?_append h hs
  · rw [numeral?_of_ne hc] at hs
    rw [List.cons_append, numeral?_of_ne hc]
    exact unsigned?_append h hs

/-! ## Decimal digits -/

/-- The value of a character that is a digit. -/
def digitOf (c : Char) : Nat := c.toNat - 48

theorem digit?_of_isDigit {c : Char} (h : c.isDigit) : digit? c = some (digitOf c) := by
  rw [digit?, if_pos]
  · rfl
  · simpa [Char.isDigit, Char.le_def, UInt32.le_iff_toNat_le] using h

theorem digits_of_isDigit (h : ∀ c ∈ s, c.isDigit) : digits s = (s.map digitOf, []) := by
  induction s with
  | nil => rfl
  | cons c s ih =>
    rw [digits, digit?_of_isDigit (h c List.mem_cons_self),
      ih fun d hd => h d (List.mem_cons_of_mem _ hd)]
    rfl

end Reader

namespace Numeral

open Reader

/-- Digits are gathered into the number they spell, where a word holds it. -/
theorem gather_eq {word : Nat} {ds : List Nat}
    (h : ds.foldl (fun n d => 10 * n + d) word ≤ maxWord) :
    gather word ds = (ds.foldl (fun n d => 10 * n + d) word, 0) := by
  induction ds generalizing word with
  | nil => rfl
  | cons d ds ih =>
    have hstep : word * 10 + d = 10 * word + d := by omega
    -- what is spelled so far does not exceed what is spelled in the end
    have hle : ∀ (ds : List Nat) (n : Nat), n ≤ ds.foldl (fun n d => 10 * n + d) n := by
      intro ds
      induction ds with
      | nil => exact fun n => Nat.le_refl n
      | cons d ds ih =>
        intro n
        exact Nat.le_trans (by omega) (ih (10 * n + d))
    rw [List.foldl_cons] at h ⊢
    rw [gather, hstep, if_pos (Nat.le_trans (hle ds _) h), ih h]

theorem gather_toDigits {n : Nat} (h : n ≤ maxWord) :
    gather 0 ((Nat.toDigits 10 n).map digitOf) = (n, 0) := by
  have hspelled : ((Nat.toDigits 10 n).map digitOf).foldl (fun n d => 10 * n + d) 0 = n := by
    rw [List.foldl_map]
    exact Nat.ofDigitChars_toDigits (by decide) (by decide)
  rw [gather_eq (by rwa [hspelled]), hspelled]

theorem digitOf_digitChar : ∀ d < 10, digitOf (Nat.digitChar d) = d := by decide

/-- The digits of a positive number do not begin with a zero. -/
theorem head?_toDigits {n : Nat} (h : 0 < n) :
    ((Nat.toDigits 10 n).map digitOf).head? ≠ some 0 := by
  induction n using Nat.strongRecOn with
  | ind n ih =>
    rw [Nat.toDigits_eq_if (by decide)]
    split
    · rename_i hn
      rw [List.map_singleton, digitOf_digitChar n hn, List.head?_cons]
      exact fun heq => absurd (Option.some.inj heq) (Nat.ne_of_gt h)
    · have hhead : ((Nat.toDigits 10 (n / 10)).map digitOf) ≠ [] := by
        rw [ne_eq, List.map_eq_nil_iff]
        exact Nat.toDigits_ne_nil
      rw [List.map_append, List.head?_append, List.head?_eq_some_head hhead, Option.some_or,
        ← List.head?_eq_some_head hhead]
      exact ih (n / 10) (by omega) (by omega)

/-- The numeral of an integer, by its sign and its magnitude. -/
def spelled (isNegative : Bool) (n : Nat) : Numeral :=
  ⟨isNegative, (Nat.toDigits 10 n).map digitOf, [], none⟩

theorem unsigned?_toDigits (isNegative : Bool) (n : Nat) :
    unsigned? isNegative (Nat.toDigits 10 n) = some (spelled isNegative n, []) := by
  have hdigits : digits (Nat.toDigits 10 n) = ((Nat.toDigits 10 n).map digitOf, []) :=
    digits_of_isDigit fun c hc => Nat.isDigit_of_mem_toDigits (by decide) (by decide) hc
  have hstart : ¬(((Nat.toDigits 10 n).map digitOf).isEmpty ∨
      (((Nat.toDigits 10 n).map digitOf).head? = some 0 ∧
        ((Nat.toDigits 10 n).map digitOf).length ≠ 1)) := by
    rintro (hempty | ⟨hzero, hlength⟩)
    · rw [List.isEmpty_iff, List.map_eq_nil_iff] at hempty
      exact Nat.toDigits_ne_nil hempty
    · rcases Nat.eq_zero_or_pos n with rfl | hpos
      · exact hlength rfl
      · exact head?_toDigits hpos hzero
  simp only [unsigned?, hdigits, if_neg hstart]
  rfl

end Numeral

namespace Number

/-- What is written for a number is a numeral that stands for it. -/
def ReadsBack (n : Number) : Prop :=
  ∃ numeral, Reader.numeral? n.render = some (numeral, []) ∧ numeral.number? = some n

/-- An integer fits sixty-four bits, with or without a sign. -/
def IsWord (i : Int) : Prop := -(twoTo 63 : Int) ≤ i ∧ i ≤ Numeral.maxWord

theorem number?_spelled (isNegative : Bool) {n : Nat} (h : n ≤ Numeral.maxWord) :
    (Numeral.spelled isNegative n).number? = Numeral.integerOf isNegative n := by
  simp only [Numeral.number?, Numeral.spelled, Numeral.gather_toDigits h]
  rfl

/-- **An integer of sixty-four bits is read back.** -/
theorem readsBack_int {i : Int} (h : IsWord i) : (int i).ReadsBack := by
  obtain ⟨hlow, hhigh⟩ := h
  cases i with
  | ofNat n =>
    have hn : n ≤ Numeral.maxWord := Int.ofNat_le.1 hhigh
    have hrender : (int (Int.ofNat n)).render = Nat.toDigits 10 n := Nat.toList_repr
    obtain ⟨c, tail, hcons, hc⟩ :=
      Reader.exists_cons_of_unsigned? (Numeral.unsigned?_toDigits false n)
    have hsign : c ≠ '-' := by
      rintro rfl
      cases hc
    refine ⟨Numeral.spelled false n, ?_, number?_spelled false hn⟩
    rw [hrender, hcons, Reader.numeral?_of_ne hsign, ← hcons]
    exact Numeral.unsigned?_toDigits false n
  | negSucc n =>
    have hn : n + 1 ≤ twoTo 63 := by
      rw [Int.negSucc_eq] at hlow
      omega
    have hword : n + 1 ≤ Numeral.maxWord := Nat.le_trans hn (by decide)
    have hrender : (int (Int.negSucc n)).render = '-' :: Nat.toDigits 10 (n + 1) := by
      change ("-" ++ (n + 1).repr).toList = _
      rw [String.toList_append, Nat.toList_repr]
      rfl
    refine ⟨Numeral.spelled true (n + 1), ?_, ?_⟩
    · rw [hrender]
      exact Numeral.unsigned?_toDigits true (n + 1)
    · have hmagnitude : ¬(n + 1 = 0 ∨ twoTo 63 < n + 1) := by omega
      rw [number?_spelled true hword, Numeral.integerOf, if_neg (by decide), if_neg hmagnitude]
      rfl

/-- An integer fits sixty-four bits. -/
def WellFormed : Number → Prop
  | int i => IsWord i
  | float _ => True

/-- A number is read back if it is an integer, or is known to be. -/
theorem readsBack_of_wellFormed {n : Number} (h : n.WellFormed)
    (hfloat : ∀ x, n = float x → n.ReadsBack) : n.ReadsBack := by
  cases n with
  | int i => exact readsBack_int h
  | float x => exact hfloat x rfl

end Number

namespace Numeral

theorem gather_le {word : Nat} {ds : List Nat} (h : word ≤ maxWord) :
    (gather word ds).1 ≤ maxWord := by
  induction ds generalizing word with
  | nil => exact h
  | cons d ds ih =>
    rw [gather]
    split
    · rename_i hword
      exact ih hword
    · exact h

theorem wellFormed_of_floatOf {isNegative : Bool} {word : Nat} {e : Int} {n : Number}
    (h : floatOf isNegative word e = some n) : n.WellFormed := by
  obtain ⟨x, -, rfl⟩ := Option.map_eq_some_iff.1 h
  trivial

theorem wellFormed_of_integerOf {isNegative : Bool} {word : Nat} {n : Number}
    (hword : word ≤ maxWord) (h : integerOf isNegative word = some n) : n.WellFormed := by
  have hlow : (0 : Int) ≤ twoTo 63 := Int.natCast_nonneg _
  rw [integerOf] at h
  split at h
  · obtain rfl := Option.some.inj h
    exact ⟨by omega, Int.ofNat_le.2 hword⟩
  · split at h
    · exact wellFormed_of_floatOf h
    · rename_i hbound
      obtain rfl := Option.some.inj h
      refine ⟨?_, by omega⟩
      have hbound : word ≤ twoTo 63 := Nat.not_lt.1 fun hlt => hbound (.inr hlt)
      omega

/-- **What a numeral stands for fits sixty-four bits.** -/
theorem wellFormed_of_number? {numeral : Numeral} {n : Number} (h : numeral.number? = some n) :
    n.WellFormed := by
  simp only [number?] at h
  split at h
  · exact wellFormed_of_integerOf (gather_le (Nat.zero_le _)) h
  · split at h
    · exact wellFormed_of_floatOf h
    · split at h
      · exact wellFormed_of_floatOf h
      · split at h
        · cases h
        · exact wellFormed_of_floatOf h

end Numeral

end Json

end SplitBuild
