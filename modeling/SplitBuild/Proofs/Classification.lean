import SplitBuild.Context
import SplitBuild.Proofs.Path.Directories
import Mathlib.Data.List.Induction
import Mathlib.Data.List.Forall2
/-!
# The deepest root

A name belongs to the subpackage with the longest root that it lies
under. Of the roots that a name lies under, two of one length are equal
(`Path.eq_of_isUnder_of_length_eq`), so the longest root is one root even
where it is declared several times, and it is what `matching` and
`matchingNormal` find. Since these roots lie under one another, the longest
is the one that no other lies under, and **a name belongs to the deepest
declared directory that it lies under** (`classifies_by_directories`),
whatever the order of the declarations and however their roots are
spelled.
-/

namespace SplitBuild

namespace SubpackageSet

/-! ## The deepest of several -/

theorem deepest?_concat (l : List Subpackage) (s : Subpackage) :
    deepest? (l ++ [s]) = match deepest? l with
      | some b => if b.root.length ≤ s.root.length then some s else some b
      | none => some s := by
  rw [deepest?, List.foldl_append, List.foldl_cons, List.foldl_nil, ← deepest?]
  cases deepest? l <;> rfl

theorem deepest?_eq_none_iff {l : List Subpackage} : deepest? l = none ↔ l = [] := by
  rcases List.eq_nil_or_concat l with rfl | ⟨front, x, rfl⟩
  · exact iff_of_true rfl rfl
  · rw [List.concat_eq_append, deepest?_concat]
    cases deepest? front with
    | none => simp
    | some b => by_cases h : b.root.length ≤ x.root.length <;> simp [h]

/-- The deepest of several is one of them, and none has a longer root. -/
theorem mem_and_length_le_of_deepest? {l : List Subpackage} {s : Subpackage}
    (h : deepest? l = some s) : s ∈ l ∧ ∀ t ∈ l, t.root.length ≤ s.root.length := by
  induction l using List.reverseRecOn generalizing s with
  | nil => simp [deepest?] at h
  | append_singleton l x ih =>
    rw [deepest?_concat] at h
    simp only [List.mem_append, List.mem_singleton]
    cases hl : deepest? l with
    | none =>
      simp only [hl, Option.some.injEq] at h
      rw [deepest?_eq_none_iff.1 hl]
      simp [h]
    | some b =>
      obtain ⟨hb, hmax⟩ := ih hl
      simp only [hl] at h
      split at h
      · rename_i hle
        obtain rfl := Option.some.inj h
        refine ⟨.inr rfl, fun t ht => ?_⟩
        rcases ht with ht | rfl
        · exact Nat.le_trans (hmax t ht) hle
        · exact Nat.le_refl _
      · rename_i hlt
        obtain rfl := Option.some.inj h
        refine ⟨.inl hb, fun t ht => ?_⟩
        rcases ht with ht | rfl
        · exact hmax t ht
        · omega

/-! ## The longest root -/

/-- `root` is the longest of the roots, of the subpackages that count, that
a name lies under. -/
def IsLongestRoot (set : SubpackageSet) (counts : Subpackage → Bool) (name root : String) : Prop :=
  (∃ s ∈ set.members, counts s ∧ s.root = root ∧ Path.isUnder name root) ∧
    ∀ s ∈ set.members, counts s → Path.isUnder name s.root → s.root.length ≤ root.length

/-- **The deepest of the subpackages that a name lies under has the longest
root.** -/
theorem exists_deepest?_iff {set : SubpackageSet} {counts : Subpackage → Bool}
    {name root : String} :
    (∃ s, deepest? (set.members.filter fun s => counts s && Path.isUnder name s.root) = some s ∧
      s.root = root) ↔ set.IsLongestRoot counts name root := by
  constructor
  · rintro ⟨s, hs, rfl⟩
    obtain ⟨hmem, hmax⟩ := mem_and_length_le_of_deepest? hs
    simp only [List.mem_filter, Bool.and_eq_true] at hmem hmax
    exact ⟨⟨s, hmem.1, hmem.2.1, rfl, hmem.2.2⟩, fun t ht hc hu => hmax t ⟨ht, hc, hu⟩⟩
  · rintro ⟨⟨s, hs, hc, rfl, hu⟩, hmax⟩
    cases hd : deepest? (set.members.filter fun s => counts s && Path.isUnder name s.root) with
    | none =>
      have hin : s ∈ set.members.filter fun s => counts s && Path.isUnder name s.root :=
        List.mem_filter.2 ⟨hs, by simp [hc, hu]⟩
      rw [deepest?_eq_none_iff.1 hd] at hin
      simp at hin
    | some t =>
      obtain ⟨hmem, hle⟩ := mem_and_length_le_of_deepest? hd
      simp only [List.mem_filter, Bool.and_eq_true] at hmem hle
      refine ⟨t, rfl, Path.eq_of_isUnder_of_length_eq (set.trimmed t hmem.1) (set.trimmed s hs)
        hmem.2.2 hu ?_⟩
      exact Nat.le_antisymm (hmax t hmem.1 hmem.2.1 hmem.2.2) (hle s ⟨hs, hc, hu⟩)

theorem exists_matchingNormal_iff {set : SubpackageSet} {name root : String} :
    (∃ s, set.matchingNormal name = some s ∧ s.root = root) ↔
      set.IsLongestRoot (fun s => !s.independent) name root :=
  exists_deepest?_iff

theorem exists_matching_iff {set : SubpackageSet} {name root : String} :
    (∃ s, set.matching name = some s ∧ s.root = root) ↔
      set.IsLongestRoot (fun _ => true) name root := by
  rw [← exists_deepest?_iff]
  simp only [matching, Bool.true_and]

theorem classify_eq_subpackage_iff {set : SubpackageSet} {name root : String} :
    set.classify name = .subpackage root ↔ set.IsLongestRoot (fun _ => true) name root := by
  rw [← exists_matching_iff, classify]
  cases set.matching name <;> simp

theorem mem_of_matching {set : SubpackageSet} {name : String} {s : Subpackage}
    (h : set.matching name = some s) : s ∈ set.members :=
  (List.mem_filter.1 (mem_and_length_le_of_deepest? h).1).1

theorem matching_eq_none_iff {set : SubpackageSet} {name : String} :
    set.matching name = none ↔ ∀ s ∈ set.members, ¬ Path.isUnder name s.root := by
  rw [matching, deepest?_eq_none_iff, List.filter_eq_nil_iff]

/-- A subpackage that is not independent and deepest among all is deepest
among those that are not independent. -/
theorem isLongestRoot_of_matching {set : SubpackageSet} {name : String} {s : Subpackage}
    (h : set.matching name = some s) (hnormal : s.independent = false) :
    set.IsLongestRoot (fun s => !s.independent) name s.root := by
  obtain ⟨hmem, hmax⟩ := mem_and_length_le_of_deepest? h
  simp only [List.mem_filter] at hmem hmax
  exact ⟨⟨s, hmem.1, by simp [hnormal], rfl, hmem.2⟩, fun t ht _ hu => hmax t ⟨ht, hu⟩⟩

/-- Where no subpackage is independent, all of them count. -/
theorem matchingNormal_eq_matching {set : SubpackageSet}
    (h : ∀ s ∈ set.members, s.independent = false) (name : String) :
    set.matchingNormal name = set.matching name := by
  have hfilter : set.members.filter (fun s => !s.independent && Path.isUnder name s.root) =
      set.members.filter fun s => Path.isUnder name s.root :=
    List.filter_congr fun s hs => by rw [h s hs, Bool.not_false, Bool.true_and]
  rw [matchingNormal, matching, hfilter]

/-! ## The deepest directory -/

theorem isTrimmedRoot_of_mem_roots {set : SubpackageSet} {root : String} (h : root ∈ set.roots) :
    IsTrimmedRoot root := by
  obtain ⟨s, hs, rfl⟩ := List.mem_map.1 h
  exact set.trimmed s hs

/-- **The longest root that a name lies under is the one that no other of them
lies under.** -/
theorem classify_eq_subpackage_iff_deepest {set : SubpackageSet} {name root : String} :
    set.classify name = .subpackage root ↔ root ∈ set.roots ∧ Path.isUnder name root ∧
      ∀ other ∈ set.roots, Path.isUnder name other → ¬ Path.isUnder other root := by
  rw [classify_eq_subpackage_iff]
  constructor
  · rintro ⟨⟨s, hs, -, rfl, hunder⟩, hlongest⟩
    refine ⟨List.mem_map_of_mem hs, hunder, fun other hother hname hdeeper => ?_⟩
    obtain ⟨t, ht, rfl⟩ := List.mem_map.1 hother
    have hle := hlongest t ht rfl hname
    have hlt := Path.length_lt_of_isUnder (set.trimmed s hs) hdeeper
    omega
  · rintro ⟨hroot, hunder, hdeepest⟩
    obtain ⟨s, hs, rfl⟩ := List.mem_map.1 hroot
    refine ⟨⟨s, hs, rfl, rfl, hunder⟩, fun t ht _ hname => ?_⟩
    have htrimmed := set.trimmed t ht
    rcases Path.eq_or_isUnder_of_isUnder (set.trimmed s hs) htrimmed hunder hname with
      heq | habove | hbelow
    · exact Nat.le_of_eq (congrArg String.length heq.symm)
    · exact Nat.le_of_lt (Path.length_lt_of_isUnder htrimmed habove)
    · exact absurd hbelow (hdeepest _ (List.mem_map_of_mem ht) hname)

/-- Only the roots of a set count, not their order or number. -/
theorem classify_congr {set other : SubpackageSet}
    (h : ∀ root, root ∈ set.roots ↔ root ∈ other.roots) (name : String) :
    set.classify name = other.classify name := by
  have hsub : ∀ root, set.classify name = .subpackage root ↔
      other.classify name = .subpackage root := by
    intro root
    rw [classify_eq_subpackage_iff_deepest, classify_eq_subpackage_iff_deepest]
    simp only [h]
  cases hset : set.classify name with
  | subpackage root => exact ((hsub root).1 hset).symm
  | main =>
    cases hother : other.classify name with
    | subpackage root => exact absurd (hset.symm.trans ((hsub root).2 hother)) nofun
    | main => rfl

/-- The roots of a set are what is left of the declared ones once they are
trimmed. -/
theorem mem_roots_ofDeclared_iff {declared : List Subpackage} {root : String} :
    root ∈ (ofDeclared declared).roots ↔
      root ≠ "" ∧ ∃ s ∈ declared, Path.trimSlashes s.root = root := by
  simp only [roots, ofDeclared, List.mem_map, List.mem_filterMap]
  constructor
  · rintro ⟨t, ⟨s, hs, htrim⟩, rfl⟩
    refine ⟨(isTrimmedRoot_of_trim? htrim).1, s, hs, ?_⟩
    simp only [trim?] at htrim
    split at htrim
    · cases htrim
    · rw [← Option.some.inj htrim]
  · rintro ⟨hne, s, hs, rfl⟩
    exact ⟨_, ⟨s, hs, if_neg hne⟩, rfl⟩

/-- A declaration with slashes added to its root, or with none. -/
def AddsSlashes (s t : Subpackage) : Prop :=
  ∃ n, t = { s with root := s.root ++ String.ofList (List.replicate n '/') }

theorem AddsSlashes.trimSlashes_root {s t : Subpackage} (h : AddsSlashes s t) :
    Path.trimSlashes t.root = Path.trimSlashes s.root := by
  obtain ⟨n, rfl⟩ := h
  exact Path.trimSlashes_append_slashes s.root n

/-- Slashes that are added to the declared roots leave the roots of the
set. -/
theorem mem_roots_of_addsSlashes {declared padded : List Subpackage}
    (h : List.Forall₂ AddsSlashes declared padded) {root : String} :
    root ∈ (ofDeclared padded).roots ↔ root ∈ (ofDeclared declared).roots := by
  have htrimmed : padded.map (fun s => Path.trimSlashes s.root) =
      declared.map fun s => Path.trimSlashes s.root := by
    induction h with
    | nil => rfl
    | cons hst _ ih => rw [List.map_cons, List.map_cons, ih, hst.trimSlashes_root]
  have hmem : ∀ l : List Subpackage, (∃ s ∈ l, Path.trimSlashes s.root = root) ↔
      root ∈ l.map fun s => Path.trimSlashes s.root := fun l => List.mem_map.symm
  rw [mem_roots_ofDeclared_iff, mem_roots_ofDeclared_iff, hmem, hmem, htrimmed]

/-- So does another order of the declarations. -/
theorem mem_roots_of_perm {declared others : List Subpackage} (h : declared.Perm others)
    {root : String} : root ∈ (ofDeclared others).roots ↔ root ∈ (ofDeclared declared).roots := by
  rw [mem_roots_ofDeclared_iff, mem_roots_ofDeclared_iff]
  simp only [h.mem_iff]

/-- **A name belongs to the deepest declared directory that it lies under.** A
name lies under a root where something is left of the root without the slashes
at its end, and its segments are the first ones of the name but not all of
them; this is what the bytes of the two tell, and it is transitive. Of the
roots of a build, two that a name lies under are one, or one lies under the
other; the name belongs to the subpackage of the one that none of the others
lies under. The order of the declarations and the slashes at the ends of their
roots do not count. -/
theorem classifies_by_directories :
    (∀ name root, Path.isUnder name root ↔ Path.trimSlashes root ≠ "" ∧
      Path.segments (Path.trimSlashes root) <+: Path.segments name ∧
        Path.segments (Path.trimSlashes root) ≠ Path.segments name) ∧
    (∀ name root, Path.isUnder name root ↔ Path.trimSlashes root ≠ "" ∧
      (Text.bytes (Path.trimSlashes root)).length < (Text.bytes name).length ∧
        Text.bytes (Path.trimSlashes root) <+: Text.bytes name ∧
          (Text.bytes name)[(Text.bytes (Path.trimSlashes root)).length]? = some 0x2f) ∧
    (∀ a b c, Path.isUnder a b → Path.isUnder b c → Path.isUnder a c) ∧
    ∀ declared : List Subpackage,
      (∀ name, ∀ a ∈ (ofDeclared declared).roots, ∀ b ∈ (ofDeclared declared).roots,
        Path.isUnder name a → Path.isUnder name b →
          a = b ∨ Path.isUnder a b ∨ Path.isUnder b a) ∧
      (∀ name root, (ofDeclared declared).classify name = .subpackage root ↔
        root ∈ (ofDeclared declared).roots ∧ Path.isUnder name root ∧
          ∀ other ∈ (ofDeclared declared).roots,
            Path.isUnder name other → ¬ Path.isUnder other root) ∧
      ∀ padded others, List.Forall₂ AddsSlashes declared padded → padded.Perm others →
        ∀ name, (ofDeclared others).classify name = (ofDeclared declared).classify name := by
  refine ⟨fun _ _ => Path.isUnder_iff_segments, fun _ _ => Path.isUnder_iff_bytes,
    fun _ _ _ => Path.isUnder_trans, fun declared => ⟨fun name a ha b hb hna hnb => ?_,
      fun _ _ => classify_eq_subpackage_iff_deepest, fun padded others hpadded hperm => ?_⟩⟩
  · exact Path.eq_or_isUnder_of_isUnder (isTrimmedRoot_of_mem_roots ha)
      (isTrimmedRoot_of_mem_roots hb) hna hnb
  · exact classify_congr fun root =>
      (mem_roots_of_perm hperm).trans (mem_roots_of_addsSlashes hpadded)

/-- The deeper of two roots that a name lies under, declared behind the other
one and spelled with slashes. -/
theorem deeper_root_found :
    Path.isUnder "pkg/deep/é/vendor" "pkg" ∧
      ("pkg" = "pkg/deep" ∨ Path.isUnder "pkg" "pkg/deep" ∨ Path.isUnder "pkg/deep" "pkg") ∧
      (ofDeclared [.ofRoot "pkg/", .ofRoot "pkg/deep//", .ofRoot ""]).classify
        "pkg/deep/é/vendor" = .subpackage "pkg/deep" := by
  obtain ⟨-, -, htrans, hdeclared⟩ := classifies_by_directories
  obtain ⟨hnested, hclassify, hspelled⟩ :=
    hdeclared [.ofRoot "pkg/deep", .ofRoot "", .ofRoot "pkg"]
  have hdeep : Path.isUnder "pkg/deep/é/vendor" "pkg/deep" := by decide
  have hpkg : Path.isUnder "pkg/deep/é/vendor" "pkg" := htrans _ _ _ hdeep (by decide)
  have hpadded : List.Forall₂ AddsSlashes [.ofRoot "pkg/deep", .ofRoot "", .ofRoot "pkg"]
      [.ofRoot "pkg/deep//", .ofRoot "", .ofRoot "pkg/"] :=
    .cons ⟨2, by decide⟩ (.cons ⟨0, by decide⟩ (.cons ⟨1, by decide⟩ .nil))
  have hperm : [Subpackage.ofRoot "pkg/deep//", .ofRoot "", .ofRoot "pkg/"].Perm
      [.ofRoot "pkg/", .ofRoot "pkg/deep//", .ofRoot ""] := by decide
  refine ⟨hpkg, hnested _ _ (by decide) _ (by decide) hpkg hdeep, ?_⟩
  rw [hspelled _ _ hpadded hperm]
  exact (hclassify _ _).2 ⟨by decide, hdeep, by decide⟩

end SubpackageSet

/-- A build with two subpackages. -/
def twoSubpackages : Context :=
  { Context.default with subpackages := .ofDeclared [.ofRoot "subA", .ofRoot "subB"] }

end SplitBuild
