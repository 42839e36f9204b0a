import SplitBuild.Subpackage
import SplitBuild.Proofs.Path.Segments
import SplitBuild.Proofs.Text.ByteOrder
import Mathlib.Data.List.DropRight
/-!
# What lies under a directory

A name lies under a directory where it starts with the directory and a
slash, the slashes at the end of the directory aside. That is the same as
going down from the directory: its segments, and at least one more, are
those of the name (`isUnder_iff_segments`). So lying under is transitive
(`isUnder_trans`), and the directories that a name lies under lie under one
another (`eq_or_isUnder_of_isUnder`). It may be read off the bytes of the
two as well (`isUnder_iff_bytes`), since texts begin alike where their bytes
do.
-/

namespace SplitBuild

namespace Path

variable {name root a b c : String}

/-! ## Trimmed directories -/

theorem toList_trimSlashes (p : String) :
    (trimSlashes p).toList = p.toList.rdropWhile (· = '/') := by
  rw [trimSlashes, String.toList_ofList, List.rdropWhile]

/-- The slashes at the end of a path, however many, do not count. -/
theorem trimSlashes_append_slashes (p : String) (n : Nat) :
    trimSlashes (p ++ String.ofList (List.replicate n '/')) = trimSlashes p := by
  have hslashes : ∀ c ∈ List.replicate n '/', (decide (c = '/')) = true := fun c hc =>
    decide_eq_true (List.eq_of_mem_replicate hc)
  rw [trimSlashes, String.toList_append, String.toList_ofList, List.reverse_append,
    List.reverse_replicate, List.dropWhile_append_of_pos hslashes, trimSlashes]

theorem isUnder_trimSlashes (name root : String) :
    isUnder name (trimSlashes root) = isUnder name root := by
  rw [isUnder, trimSlashes_trimSlashes, isUnder]

/-- What is left of a directory is trimmed, unless nothing is. -/
theorem isTrimmedRoot_trimSlashes (h : trimSlashes root ≠ "") : IsTrimmedRoot (trimSlashes root) :=
  ⟨h, trimSlashes_trimSlashes root⟩

/-- Nothing lies under a directory of which nothing is left. -/
theorem trimSlashes_ne_empty_of_isUnder (h : isUnder name root) : trimSlashes root ≠ "" := by
  intro hempty
  simp only [isUnder, hempty] at h
  exact Bool.false_ne_true h

/-- A name lies under a trimmed root where it starts with the root and a
slash. -/
theorem isUnder_iff_of_trimmed {name root : String} (h : IsTrimmedRoot root) :
    isUnder name root ↔ root.toList ++ ['/'] <+: name.toList := by
  unfold isUnder
  rw [h.2]
  have hne : root.toList.isEmpty = false := by
    rw [List.isEmpty_eq_false_iff]
    exact fun hnil => h.1 (String.toList_eq_nil_iff.1 hnil)
  simp only [hne, Bool.not_false, Bool.true_and, Option.isSome_iff_exists,
    Text.after?_eq_some_iff]
  exact ⟨fun ⟨rest, hrest⟩ => ⟨rest, hrest.symm⟩, fun ⟨rest, hrest⟩ => ⟨rest, hrest.symm⟩⟩

/-- That is, where it is the root, a slash, and something more or nothing. -/
theorem isUnder_iff_exists (h : IsTrimmedRoot root) :
    isUnder name root ↔ ∃ rest, name = root ++ "/" ++ rest := by
  rw [isUnder_iff_of_trimmed h]
  constructor
  · rintro ⟨rest, hrest⟩
    exact ⟨String.ofList rest, String.toList_injective (by simpa using hrest.symm)⟩
  · rintro ⟨rest, rfl⟩
    exact ⟨rest.toList, by simp⟩

/-- Of the roots that a name lies under, two of one length are equal. -/
theorem eq_of_isUnder_of_length_eq {name a b : String} (ha : IsTrimmedRoot a)
    (hb : IsTrimmedRoot b) (hna : isUnder name a) (hnb : isUnder name b)
    (hlen : a.length = b.length) : a = b := by
  have hpa : a.toList <+: name.toList :=
    (List.prefix_append _ _).trans ((isUnder_iff_of_trimmed ha).1 hna)
  have hpb : b.toList <+: name.toList :=
    (List.prefix_append _ _).trans ((isUnder_iff_of_trimmed hb).1 hnb)
  have hlist : a.toList.length = b.toList.length := by
    rw [String.length_toList, String.length_toList, hlen]
  exact String.toList_injective
    ((List.prefix_of_prefix_length_le hpa hpb (Nat.le_of_eq hlist)).eq_of_length hlist)

/-! ## Segments -/

/-- Paths with the same segments are one path. -/
theorem segments_injective : Function.Injective segments :=
  Function.LeftInverse.injective ofSegments_segments

/-- A name lies under a trimmed root where the segments of the root, and at
least one more, are those of the name. -/
theorem isUnder_iff_segments_of_trimmed (h : IsTrimmedRoot root) : isUnder name root ↔
    segments root <+: segments name ∧ segments root ≠ segments name := by
  rw [isUnder_iff_exists h]
  constructor
  · rintro ⟨rest, rfl⟩
    rw [segments_append_slash]
    refine ⟨List.prefix_append _ _, fun heq => ?_⟩
    exact Text.pieces_ne_nil _ _ (List.self_eq_append_right.1 heq)
  · rintro ⟨⟨more, hmore⟩, hne⟩
    have hsome : more ≠ [] := by
      rintro rfl
      exact hne (by simpa using hmore)
    have hslash : ∀ seg ∈ more, '/' ∉ seg := fun seg hseg =>
      slash_not_mem_of_mem_segments (hmore ▸ List.mem_append_right _ hseg)
    refine ⟨ofSegments more, segments_injective ?_⟩
    rw [segments_append_slash, segments_ofSegments hsome hslash, hmore]

/-- **A name lies under a directory that goes down to it.** -/
theorem isUnder_iff_segments : isUnder name root ↔ trimSlashes root ≠ "" ∧
    segments (trimSlashes root) <+: segments name ∧
      segments (trimSlashes root) ≠ segments name := by
  by_cases h : trimSlashes root = ""
  · exact iff_of_false (fun hunder => trimSlashes_ne_empty_of_isUnder hunder h) fun hall => hall.1 h
  · rw [← isUnder_trimSlashes, isUnder_iff_segments_of_trimmed (isTrimmedRoot_trimSlashes h),
      and_iff_right h]

/-! ## Directories under directories -/

/-- A path that another one begins with still does when both are trimmed. -/
theorem trimSlashes_prefix (h : a.toList <+: b.toList) :
    (trimSlashes a).toList <+: (trimSlashes b).toList := by
  obtain ⟨more, hmore⟩ := h
  rw [toList_trimSlashes, toList_trimSlashes, ← hmore, List.rdropWhile, List.rdropWhile,
    List.reverse_append, List.dropWhile_append]
  split
  · exact List.prefix_rfl
  · rw [List.reverse_append, List.reverse_reverse]
    exact (List.rdropWhile_prefix _ _).trans (List.prefix_append _ _)

/-- **What lies under a directory lies under all that the directory lies
under.** -/
theorem isUnder_trans (hab : isUnder a b) (hbc : isUnder b c) : isUnder a c := by
  have hb := isTrimmedRoot_trimSlashes (trimSlashes_ne_empty_of_isUnder hab)
  have hc := isTrimmedRoot_trimSlashes (trimSlashes_ne_empty_of_isUnder hbc)
  rw [← isUnder_trimSlashes, isUnder_iff_of_trimmed hb] at hab
  rw [← isUnder_trimSlashes, isUnder_iff_of_trimmed hc] at hbc
  rw [← isUnder_trimSlashes, isUnder_iff_of_trimmed hc]
  have hcb : (trimSlashes c).toList <+: (trimSlashes b).toList := by
    rw [← trimSlashes_trimSlashes c]
    exact trimSlashes_prefix ((List.prefix_append _ _).trans hbc)
  obtain ⟨more, hmore⟩ := hcb
  -- the two directories are one, or a slash follows the upper one in the lower one
  cases more with
  | nil =>
    rw [List.append_nil] at hmore
    rw [hmore]
    exact hab
  | cons d more =>
    have hslash : (trimSlashes c).toList ++ d :: more <+: b.toList := by
      rw [hmore, toList_trimSlashes]
      exact List.rdropWhile_prefix _ _
    have hd : (trimSlashes c).toList ++ [d] <+: b.toList := by
      refine List.IsPrefix.trans ⟨more, ?_⟩ hslash
      rw [List.append_assoc, List.singleton_append]
    have hlength : ((trimSlashes c).toList ++ [d]).length ≤
        ((trimSlashes c).toList ++ ['/']).length := by simp
    have heq := (List.prefix_of_prefix_length_le hd hbc hlength).eq_of_length (by simp)
    rw [← heq]
    refine List.IsPrefix.trans ⟨more, ?_⟩ ((List.prefix_append _ _).trans hab)
    rw [List.append_assoc, List.singleton_append, hmore]

/-- **Two roots that a name lies under are one, or one lies under the
other.** -/
theorem eq_or_isUnder_of_isUnder (ha : IsTrimmedRoot a) (hb : IsTrimmedRoot b)
    (hna : isUnder name a) (hnb : isUnder name b) : a = b ∨ isUnder a b ∨ isUnder b a := by
  rw [isUnder_iff_segments_of_trimmed ha] at hna
  rw [isUnder_iff_segments_of_trimmed hb] at hnb
  by_cases hab : segments a = segments b
  · exact .inl (segments_injective hab)
  · rcases List.prefix_or_prefix_of_prefix hna.1 hnb.1 with h | h
    · exact .inr (.inr ((isUnder_iff_segments_of_trimmed ha).2 ⟨h, hab⟩))
    · exact .inr (.inl ((isUnder_iff_segments_of_trimmed hb).2 ⟨h, Ne.symm hab⟩))

/-- What lies under a root has a longer path. -/
theorem length_lt_of_isUnder (h : IsTrimmedRoot root) (hunder : isUnder name root) :
    root.length < name.length := by
  obtain ⟨rest, rfl⟩ := (isUnder_iff_exists h).1 hunder
  rw [String.length_append, String.length_append]
  have hslash : "/".length = 1 := by rfl
  omega

/-! ## Bytes -/

/-- **Lying under a directory is read off the bytes.** The bytes of the name
begin with those of the trimmed directory, go on, and go on with a slash. -/
theorem isUnder_iff_bytes : isUnder name root ↔ trimSlashes root ≠ "" ∧
    (Text.bytes (trimSlashes root)).length < (Text.bytes name).length ∧
      Text.bytes (trimSlashes root) <+: Text.bytes name ∧
        (Text.bytes name)[(Text.bytes (trimSlashes root)).length]? = some 0x2f := by
  constructor
  · intro h
    have hne := trimSlashes_ne_empty_of_isUnder h
    rw [← isUnder_trimSlashes, isUnder_iff_exists (isTrimmedRoot_trimSlashes hne)] at h
    obtain ⟨rest, rfl⟩ := h
    have hslash : Text.bytes "/" = [0x2f] := by rfl
    rw [Text.bytes_append, Text.bytes_append, hslash, List.append_assoc, List.singleton_append]
    refine ⟨hne, ?_, List.prefix_append _ _, ?_⟩
    · rw [List.length_append, List.length_cons]
      omega
    · rw [List.getElem?_append_right (Nat.le_refl _), Nat.sub_self]
      rfl
  · rintro ⟨hne, -, hprefix, hbyte⟩
    obtain ⟨more, hmore⟩ := Text.bytes_prefix_iff.1 hprefix
    have hname : name = trimSlashes root ++ String.ofList more :=
      String.toList_injective (by simpa using hmore.symm)
    rw [← isUnder_trimSlashes, isUnder_iff_of_trimmed (isTrimmedRoot_trimSlashes hne), ← hmore,
      List.prefix_append_right_inj]
    rw [hname, Text.bytes_append, List.getElem?_append_right (Nat.le_refl _), Nat.sub_self,
      Text.bytes_eq_flatMap (String.ofList more), String.toList_ofList] at hbyte
    cases more with
    | nil => cases hbyte
    | cons d more =>
      rw [List.flatMap_cons, ← List.head?_eq_getElem?, List.head?_append,
        List.head?_eq_some_head String.utf8EncodeChar_ne_nil, Option.some_or,
        ← List.head?_eq_some_head String.utf8EncodeChar_ne_nil] at hbyte
      rw [Text.eq_slash_of_head?_encode hbyte]
      exact ⟨more, rfl⟩

end Path

end SplitBuild
