import SplitBuild.Names
import Mathlib.Data.String.Basic
/-!
# The order of bytes

Names are listed by the code points of their characters. In UTF-8 a
character with a greater code point has a greater first byte, or shares
the first bytes and has a greater one behind them
(`encode_append_lt`). So **the order of names is the order of their
bytes** (`bytes_lt_iff`), and `sortedNames` lists names in it. Texts also begin
alike where their bytes do (`bytes_prefix_iff`).
-/

namespace SplitBuild

namespace Text

/-- The bytes of a text in UTF-8. -/
def bytes (s : String) : List UInt8 := s.toUTF8.data.toList

theorem bytes_eq_flatMap (s : String) : bytes s = s.toList.flatMap String.utf8EncodeChar := by
  rw [bytes, String.toUTF8_eq_toByteArray, ← String.utf8Encode_toList, List.utf8Encode,
    List.toList_data_toByteArray]

/-! ## Characters -/

/-- Of two texts of bytes that begin with two numbers, the one with the
greater number is greater. -/
theorem byte_cons_lt {m n : Nat} {s t : List UInt8} (hn : n < 256) (hle : m ≤ n)
    (hrest : m = n → s < t) : UInt8.ofNat m :: s < UInt8.ofNat n :: t := by
  rw [List.cons_lt_cons_iff]
  rcases Nat.lt_or_eq_of_le hle with hlt | rfl
  · have hm : m < 256 := by omega
    refine .inl (UInt8.lt_iff_toNat_lt.2 ?_)
    rwa [UInt8.toNat_ofNat_of_lt' hm, UInt8.toNat_ofNat_of_lt' hn]
  · exact .inr ⟨rfl, hrest rfl⟩

/-- **A greater character has greater bytes**, whatever follows. -/
theorem encode_append_lt {c d : Char} (h : c < d) (s t : List UInt8) :
    String.utf8EncodeChar c ++ s < String.utf8EncodeChar d ++ t := by
  have hlt : c.val.toNat < d.val.toNat := UInt32.lt_iff_toNat_lt.1 h
  have hmax : d.val.toNat < 0x110000 := by
    have hvalid : d.val.toNat < 0xd800 ∨ 0xdfff < d.val.toNat ∧ d.val.toNat < 0x110000 := d.valid
    omega
  simp only [String.utf8EncodeChar]
  generalize c.val.toNat = v at *
  generalize d.val.toNat = w at *
  -- a shorter encoding has a smaller first byte; in one of the same length the bytes are digits
  split_ifs
  all_goals try omega
  all_goals simp only [List.cons_append, List.nil_append]
  all_goals repeat' refine byte_cons_lt (by omega) (by omega) fun _ => ?_
  all_goals omega

/-- The byte of a slash begins no other character. -/
theorem eq_slash_of_head?_encode {c : Char}
    (h : (String.utf8EncodeChar c).head? = some 0x2f) : c = '/' := by
  have hbyte : ∀ n : Nat, n < 256 → some (UInt8.ofNat n) = some 0x2f → n = 0x2f := by
    intro n hn heq
    have hnat := congrArg UInt8.toNat (Option.some.inj heq)
    rwa [UInt8.toNat_ofNat_of_lt' hn] at hnat
  have hcode : c.val.toNat = 0x2f := by
    simp only [String.utf8EncodeChar] at h
    generalize c.val.toNat = v at *
    split_ifs at h
    all_goals have hfirst := hbyte _ (by omega) h
    all_goals omega
  exact Char.ext (UInt32.toNat_inj.1 hcode)

/-! ## Texts -/

theorem bytes_append (s t : String) : bytes (s ++ t) = bytes s ++ bytes t := by
  rw [bytes_eq_flatMap, String.toList_append, List.flatMap_append, ← bytes_eq_flatMap,
    ← bytes_eq_flatMap]

theorem flatMap_encode_lt {s t : List Char} (h : s < t) :
    s.flatMap String.utf8EncodeChar < t.flatMap String.utf8EncodeChar := by
  induction s generalizing t with
  | nil =>
    cases t with
    | nil => exact absurd h (List.lt_irrefl _)
    | cons d t =>
      obtain ⟨b, rest, hb⟩ := List.exists_cons_of_ne_nil (String.utf8EncodeChar_ne_nil (c := d))
      rw [List.flatMap_nil, List.flatMap_cons, hb]
      exact List.nil_lt_cons _ _
  | cons c s ih =>
    cases t with
    | nil => exact absurd h (List.not_lt_nil _)
    | cons d t =>
      rw [List.flatMap_cons, List.flatMap_cons]
      rcases List.cons_lt_cons_iff.1 h with hcd | ⟨rfl, hst⟩
      · exact encode_append_lt hcd _ _
      · exact List.append_left_lt (ih hst)

theorem bytes_lt_of_lt {s t : String} (h : s < t) : bytes s < bytes t := by
  rw [bytes_eq_flatMap, bytes_eq_flatMap]
  exact flatMap_encode_lt (String.lt_iff_toList_lt.1 h)

/-- **The order of texts is the order of their bytes.** -/
theorem bytes_lt_iff {s t : String} : bytes s < bytes t ↔ s < t := by
  refine ⟨fun h => ?_, bytes_lt_of_lt⟩
  rcases lt_trichotomy s t with hlt | rfl | hgt
  · exact hlt
  · exact absurd h (List.lt_irrefl _)
  · exact absurd (bytes_lt_of_lt hgt) (List.lt_asymm h)

theorem bytes_lt_of_compare {s t : String} (h : compare s t = .lt) : bytes s < bytes t :=
  bytes_lt_of_lt (compare_lt_iff_lt.1 h)

/-! ## Texts that begin alike -/

/-- What begins with the bytes of some characters begins with the characters. -/
theorem prefix_of_flatMap_encode {s t : List Char} {rest : List UInt8}
    (h : s.flatMap String.utf8EncodeChar ++ rest = t.flatMap String.utf8EncodeChar) : s <+: t := by
  induction s generalizing t with
  | nil => exact List.nil_prefix
  | cons c s ih =>
    cases t with
    | nil =>
      rw [List.flatMap_nil, List.append_eq_nil_iff, List.flatMap_cons, List.append_eq_nil_iff] at h
      exact absurd h.1.1 String.utf8EncodeChar_ne_nil
    | cons d t =>
      rw [List.flatMap_cons, List.flatMap_cons, List.append_assoc] at h
      -- characters that differ are ordered, and so are the bytes that begin with theirs
      rcases lt_trichotomy c d with hlt | rfl | hgt
      · exact absurd (h ▸ encode_append_lt hlt _ _) (List.lt_irrefl _)
      · exact List.cons_prefix_cons.2 ⟨rfl, ih (List.append_cancel_left h)⟩
      · exact absurd (h ▸ encode_append_lt hgt _ _) (List.lt_irrefl _)

/-- **Texts begin alike where their bytes do.** -/
theorem bytes_prefix_iff {s t : String} : bytes s <+: bytes t ↔ s.toList <+: t.toList := by
  constructor
  · rintro ⟨rest, h⟩
    rw [bytes_eq_flatMap, bytes_eq_flatMap] at h
    exact prefix_of_flatMap_encode h
  · rintro ⟨rest, h⟩
    have ht : t = s ++ String.ofList rest := String.toList_injective (by simpa using h.symm)
    rw [ht, bytes_append]
    exact List.prefix_append _ _

end Text

/-! ## Sorted names -/

/-- The entries of a map of names are listed in the order of the bytes of the
names. -/
theorem toList_pairwise_bytes {α : Type} (m : NameMap α) :
    m.toList.Pairwise fun a b => Text.bytes a.1 < Text.bytes b.1 :=
  Std.ExtTreeMap.ordered_keys_toList.imp Text.bytes_lt_of_compare

/-- Names are listed in the order of their bytes. -/
theorem sortedNames_pairwise_bytes (names : List String) :
    (sortedNames names).Pairwise fun a b => Text.bytes a < Text.bytes b :=
  (sortedNames_pairwise names).imp Text.bytes_lt_of_compare

/-- Sorting forgets the order of names, and how often each stands. -/
theorem sortedNames_congr {names others : List String} (h : ∀ n, n ∈ names ↔ n ∈ others) :
    sortedNames names = sortedNames others := by
  have heq : Std.ExtTreeSet.ofList names compare = Std.ExtTreeSet.ofList others compare := by
    ext n
    simp [h]
  rw [sortedNames, heq, sortedNames]

end SplitBuild
