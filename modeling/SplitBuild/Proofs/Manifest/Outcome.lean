import SplitBuild.Proofs.Exchange.Subpackages
import SplitBuild.Proofs.Manifest.Patch
/-!
# What a patched root manifest holds

A root manifest can be patched if it is an object that lists subpackages or
none at all, and then `IsPatch` says of every key what the result holds
under it and where the key stands: the list goes on with what the build
adds, dropped components are gone, the flag for loading code lazily is as
the options ask, and all else is as it was. **A patch goes through exactly
where it can and its result is this** (`patch_exact`). Its names are
distinct throughout (`IsPatch.distinct`), so that it is read back.

The list that results names no directory a second time exactly if no root
is spelled in two ways (`patch_lists_once_iff`).
-/

namespace SplitBuild

open Json

namespace RootManifest

variable {ctx : Context} {names : List String} {options : Options} {manifest result : Object}
variable {before : List Value} {source k : String}

/-- A manifest lists some entries under its subpackages, or has no list at
all. -/
def Lists (manifest : Object) (before : List Value) : Prop :=
  manifest.get? subPackages = some (.array before) ∨
    manifest.get? subPackages = none ∧ before = []

/-- `result` is `manifest` patched, where `before` was listed at first. -/
structure IsPatch (ctx : Context) (names : List String) (before : List Value)
    (manifest result : Object) : Prop where
  /-- What was listed is followed by the subpackages that the options append,
  and these by the declared ones without pages. -/
  listed : result.get? subPackages = some (.array (before
    ++ (appended ctx before).map Subpackage.value
    ++ (discovered ctx names before).map entryWithoutPages))
  dropped : ∀ all, manifest.get? usingComponents = some (.object all) →
    result.get? usingComponents =
      some (.object (all.filter fun e => e.1 ∉ ctx.options.deleteComponents))
  /-- What is no object holds no components to drop. -/
  undropped : (∀ all, manifest.get? usingComponents ≠ some (.object all)) →
    result.get? usingComponents = manifest.get? usingComponents
  unasked : ctx.options.lazyCodeLoading = none →
    result.get? lazyCodeLoading = manifest.get? lazyCodeLoading
  cleared : ctx.options.lazyCodeLoading = some "" → result.get? lazyCodeLoading = none
  set : ∀ flag, ctx.options.lazyCodeLoading = some flag → flag ≠ "" →
    result.get? lazyCodeLoading = some (.string flag)
  kept : ∀ k, k ∉ [subPackages, usingComponents, lazyCodeLoading] →
    result.get? k = manifest.get? k
  /-- Old keys stand as they stood, and new ones come after them. -/
  order : Keyed.keys result = (Keyed.keys manifest).filter (· ∈ Keyed.keys result)
    ++ [subPackages, lazyCodeLoading].filter fun k => k ∈ Keyed.keys result ∧ k ∉ Keyed.keys manifest
  nodup : (Keyed.keys result).Nodup

theorem entries_eq_ok_iff : entries manifest = .ok before ↔ Lists manifest before := by
  unfold entries Lists
  cases hlist : manifest.get? subPackages with
  | none => simp [eq_comm]
  | some v => cases v <;> simp

/-! ## The keys of a patched manifest -/

theorem keys_dropComponents : Keyed.keys (dropComponents options manifest) = Keyed.keys manifest := by
  unfold dropComponents
  split
  · rename_i components hcomponents
    have hmem : usingComponents ∈ Keyed.keys manifest :=
      Keyed.isSome_get?_iff.1 (by rw [hcomponents]; rfl)
    rw [Keyed.keys_put, if_pos hmem]
  · rfl

theorem keys_erase (entries : Object) (k : String) :
    Keyed.keys (entries.erase k) = (Keyed.keys entries).filter (· ≠ k) := by
  rw [Keyed.keys, Keyed.keys, Keyed.erase, List.filter_map]
  rfl

/-- Names that are some of the old ones, and new ones behind them, stand as
the old names stood. -/
theorem eq_filter_mem_append {old new candidates : List String} {p q : String → Bool}
    (h : new = old.filter p ++ candidates.filter q) (hq : ∀ k ∈ candidates, q k → k ∉ old) :
    new = old.filter (· ∈ new) ++ candidates.filter fun k => k ∈ new ∧ k ∉ old := by
  have hold : old.filter p = old.filter (· ∈ new) := by
    refine List.filter_congr fun k hk => ?_
    have hmem : k ∈ new ↔ p k := by
      rw [h, List.mem_append, List.mem_filter, List.mem_filter]
      exact ⟨fun hk' => hk'.elim And.right fun hnew => absurd hk (hq k hnew.1 hnew.2),
        fun hp => .inl ⟨hk, hp⟩⟩
    rw [Bool.eq_iff_iff, decide_eq_true_iff, hmem]
  have hcandidates : candidates.filter q = candidates.filter fun k => k ∈ new ∧ k ∉ old := by
    refine List.filter_congr fun k hk => ?_
    have hmem : k ∈ new ∧ k ∉ old ↔ q k := by
      rw [h, List.mem_append, List.mem_filter, List.mem_filter]
      exact ⟨fun ⟨hk', hnew⟩ => hk'.elim (fun hk' => absurd hk'.1 hnew) And.right,
        fun hqk => ⟨.inr ⟨hk, hqk⟩, hq k hk hqk⟩⟩
    rw [Bool.eq_iff_iff, decide_eq_true_iff, hmem]
  rw [← hold, ← hcandidates]
  exact h

/-- The keys stand as they stood, with the list of subpackages last where it
is new. -/
theorem keys_relisted (v : Value) :
    Keyed.keys (dropComponents options (manifest.put subPackages v)) =
      Keyed.keys manifest ++ if subPackages ∈ Keyed.keys manifest then [] else [subPackages] := by
  rw [keys_dropComponents, Keyed.keys_put]
  split
  · rw [List.append_nil]
  · rfl

theorem order_of_setLazyLoading {relisted : Object} (hkeys : Keyed.keys relisted =
      Keyed.keys manifest ++ if subPackages ∈ Keyed.keys manifest then [] else [subPackages])
    (h : result = setLazyLoading options relisted) :
    Keyed.keys result = (Keyed.keys manifest).filter (· ∈ Keyed.keys result) ++
      [subPackages, lazyCodeLoading].filter
        fun k => k ∈ Keyed.keys result ∧ k ∉ Keyed.keys manifest := by
  have hne : lazyCodeLoading ≠ subPackages := by decide
  subst h
  cases hlazy : options.lazyCodeLoading with
  | none =>
    have hset : setLazyLoading options relisted = relisted := by simp only [setLazyLoading, hlazy]
    refine eq_filter_mem_append (p := fun _ => true)
      (q := fun k => k = subPackages ∧ subPackages ∉ Keyed.keys manifest) ?_ (by simp [hne])
    rw [hset, hkeys]
    by_cases hs : subPackages ∈ Keyed.keys manifest <;> simp [hs, hne]
  | some flag =>
    by_cases hflag : flag = ""
    · have hset : setLazyLoading options relisted = relisted.erase lazyCodeLoading := by
        subst hflag
        simp only [setLazyLoading, hlazy]
      refine eq_filter_mem_append (p := fun k => k ≠ lazyCodeLoading)
        (q := fun k => k = subPackages ∧ subPackages ∉ Keyed.keys manifest) ?_ (by simp [hne])
      rw [hset, keys_erase, hkeys]
      by_cases hs : subPackages ∈ Keyed.keys manifest <;> simp [hs, hne, hne.symm]
    · have hset : setLazyLoading options relisted =
          relisted.put lazyCodeLoading (.string flag) := by
        simp only [setLazyLoading, hlazy]
      refine eq_filter_mem_append (p := fun _ => true)
        (q := fun k => k ∉ Keyed.keys manifest) ?_ (by simp)
      rw [hset, Keyed.keys_put, hkeys]
      by_cases hs : subPackages ∈ Keyed.keys manifest <;>
        by_cases hl : lazyCodeLoading ∈ Keyed.keys manifest <;> simp [hs, hl, hne]

/-! ## The result of a patch -/

theorem get?_dropComponents_of_object {all : Object}
    (h : manifest.get? usingComponents = some (.object all)) :
    (dropComponents options manifest).get? usingComponents =
      some (.object (all.filter fun e => e.1 ∉ options.deleteComponents)) := by
  rw [dropComponents, h]
  exact (Keyed.get?_put _ _ _ _).trans (if_pos rfl)

theorem dropComponents_of_not_object
    (h : ∀ all, manifest.get? usingComponents ≠ some (.object all)) :
    dropComponents options manifest = manifest := by
  unfold dropComponents
  split
  · rename_i all hall
    exact absurd hall (h all)
  · rfl

theorem get?_setLazyLoading (flag : String) (hflag : options.lazyCodeLoading = some flag) :
    (setLazyLoading options manifest).get? lazyCodeLoading =
      if flag = "" then none else some (.string flag) := by
  by_cases h : flag = ""
  · rw [if_pos h]
    subst h
    simp only [setLazyLoading, hflag]
    rw [Keyed.get?_erase, if_pos rfl]
  · simp only [setLazyLoading, hflag]
    rw [Keyed.get?_put, if_pos rfl, if_neg h]

theorem nodup_keys_dropComponents (h : (Keyed.keys manifest).Nodup) :
    (Keyed.keys (dropComponents options manifest)).Nodup := by
  rw [keys_dropComponents]
  exact h

theorem nodup_keys_setLazyLoading (h : (Keyed.keys manifest).Nodup) :
    (Keyed.keys (setLazyLoading options manifest)).Nodup := by
  unfold setLazyLoading
  split
  · exact h
  · rw [keys_erase]
    exact h.filter _
  · exact Keyed.nodup_keys_put h

/-- **The result of a patch**, for a manifest with distinct names. -/
theorem isPatch_of_patchObject (hnodup : (Keyed.keys manifest).Nodup)
    (hbefore : Lists manifest before) (h : patchObject ctx names manifest = .ok result) :
    IsPatch ctx names before manifest result := by
  obtain ⟨before', hentries, hresult⟩ := patchObject_eq_ok_iff.1 h
  obtain rfl := Except.ok.inj ((entries_eq_ok_iff.2 hbefore).symm.trans hentries)
  have hrelisted : ∀ k, k ≠ subPackages →
      (manifest.put subPackages (.array (RootManifest.listed ctx names before))).get? k =
        manifest.get? k := fun k hk => by rw [Keyed.get?_put, if_neg hk.symm]
  have hcomponents : ∀ k, k ≠ lazyCodeLoading → result.get? k = (dropComponents ctx.options
      (manifest.put subPackages (.array (RootManifest.listed ctx names before)))).get? k :=
    fun k hk => by rw [hresult, get?_setLazyLoading_of_ne hk.symm]
  exact
    { listed := by
        rw [hcomponents _ (by decide), get?_dropComponents_of_ne (by decide), Keyed.get?_put,
          if_pos rfl, listed_eq, added, List.append_assoc]
      dropped := fun all hall => by
        rw [hcomponents _ (by decide)]
        exact get?_dropComponents_of_object ((hrelisted _ (by decide)).trans hall)
      undropped := fun hnone => by
        rw [hcomponents _ (by decide), dropComponents_of_not_object, hrelisted _ (by decide)]
        exact fun all hall => hnone all ((hrelisted _ (by decide)).symm.trans hall)
      unasked := fun hlazy => by
        have hset : setLazyLoading ctx.options (dropComponents ctx.options (manifest.put subPackages
            (.array (RootManifest.listed ctx names before)))) = dropComponents ctx.options
              (manifest.put subPackages (.array (RootManifest.listed ctx names before))) := by
          simp only [setLazyLoading, hlazy]
        rw [hresult, hset, get?_dropComponents_of_ne (by decide), hrelisted _ (by decide)]
      cleared := fun hlazy => by rw [hresult, get?_setLazyLoading "" hlazy, if_pos rfl]
      set := fun flag hlazy hflag => by rw [hresult, get?_setLazyLoading flag hlazy, if_neg hflag]
      kept := fun k hk => get?_of_patchObject h hk
      order := order_of_setLazyLoading (keys_relisted _) hresult
      nodup := by
        rw [hresult]
        exact nodup_keys_setLazyLoading (nodup_keys_dropComponents (Keyed.nodup_keys_put hnodup)) }

theorem exists_patch (ctx : Context) (names : List String)
    (hread : Value.read? source = some (.object manifest)) (hbefore : Lists manifest before) :
    ∃ result, patchObject ctx names manifest = .ok result ∧
      patch ctx names source = .ok (Value.object result).pretty := by
  have hresult : patchObject ctx names manifest = .ok (setLazyLoading ctx.options
      (dropComponents ctx.options
        (manifest.put subPackages (.array (RootManifest.listed ctx names before))))) :=
    patchObject_eq_ok_iff.2 ⟨before, entries_eq_ok_iff.2 hbefore, rfl⟩
  exact ⟨_, hresult, patch_eq_ok_iff.2 ⟨manifest, _, hread, hresult, rfl⟩⟩

/-! ## Reading the result -/

/-- The subpackages that a build may list are such as are read. -/
structure ListsWellFormed (ctx : Context) : Prop where
  appended : ∀ s ∈ ctx.options.appendSubPackages, s.WellFormed
  declared : ∀ s ∈ ctx.subpackages.members, s.WellFormed

/-- The entries that a patch adds have distinct names. -/
theorem distinct_of_mem_added (hctx : ListsWellFormed ctx) {v : Value}
    (hv : v ∈ added ctx names before) : v.Distinct := by
  rcases List.mem_append.1 hv with hv | hv
  · obtain ⟨s, hs, rfl⟩ := List.mem_map.1 hv
    exact Subpackage.distinct_value
      (hctx.appended s (List.mem_of_mem_filter (mem_of_mem_firstNew hs)))
  · obtain ⟨s, hs, rfl⟩ := List.mem_map.1 hv
    exact Subpackage.distinct_entryWithoutPages
      (hctx.declared s (List.mem_of_mem_filter (mem_of_mem_firstNew hs)))

/-- The names in the result of a patch are distinct throughout. -/
theorem IsPatch.distinct (h : IsPatch ctx names before manifest result)
    (hctx : ListsWellFormed ctx) (hmanifest : (Value.object manifest).Distinct)
    (hbefore : Lists manifest before) : (Value.object result).Distinct := by
  have hold : ∀ {k v}, manifest.get? k = some v → v.Distinct := fun hget =>
    Value.distinctEntries_iff.1 hmanifest.2 _ _ (Keyed.mem_of_get? hget)
  refine ⟨h.nodup, Value.distinctEntries_iff.2 fun k v hmem => ?_⟩
  have hget := Keyed.get?_of_mem h.nodup hmem
  by_cases hlist : k = subPackages
  · subst hlist
    rw [h.listed, List.append_assoc] at hget
    obtain rfl := Option.some.inj hget
    refine Value.distinctItems_iff.2 (List.forall_mem_append.2 ⟨?_, ?_⟩)
    · rcases hbefore with hbefore | ⟨-, rfl⟩
      · exact Value.distinctItems_iff.1 (hold hbefore)
      · exact fun v hv => absurd hv List.not_mem_nil
    · exact fun v hv => distinct_of_mem_added hctx hv
  by_cases hcomponents : k = usingComponents
  · subst hcomponents
    by_cases hobject : ∃ all, manifest.get? usingComponents = some (.object all)
    · obtain ⟨all, hall⟩ := hobject
      obtain ⟨hnodup, hentries⟩ := hold hall
      rw [h.dropped all hall] at hget
      obtain rfl := Option.some.inj hget
      refine ⟨(List.filter_sublist.map Prod.fst).nodup hnodup, ?_⟩
      refine Value.distinctEntries_iff.2 fun k v hmem => ?_
      exact Value.distinctEntries_iff.1 hentries k v (List.mem_of_mem_filter hmem)
    · rw [h.undropped fun all hall => hobject ⟨all, hall⟩] at hget
      exact hold hget
  by_cases hlazy : k = lazyCodeLoading
  · subst hlazy
    cases hflag : ctx.options.lazyCodeLoading with
    | none =>
      rw [h.unasked hflag] at hget
      exact hold hget
    | some flag =>
      by_cases hempty : flag = ""
      · rw [h.cleared (hempty ▸ hflag)] at hget
        cases hget
      · rw [h.set flag hflag hempty] at hget
        obtain rfl := Option.some.inj hget
        trivial
  · rw [h.kept k (by simp [hlist, hcomponents, hlazy])] at hget
    exact hold hget

/-- **A patch, exactly.** It goes through where the text is an object that
lists subpackages or has no list, and then the text of the patched object
is written. That text is read as the patched object where the object is not
nested too deep and its numbers are read back. -/
theorem patch_exact :
    ((∃ text, patch ctx names source = .ok text) ↔
      ∃ manifest before, Value.read? source = some (.object manifest) ∧ Lists manifest before) ∧
    ∀ manifest before, Value.read? source = some (.object manifest) → Lists manifest before →
      ∃ result, IsPatch ctx names before manifest result ∧
        patch ctx names source = .ok (Value.object result).pretty ∧
        (ListsWellFormed ctx → (Value.object result).Fits Document.maxDepth →
          Value.read? (Value.object result).pretty = some (.object result)) := by
  refine ⟨⟨?_, ?_⟩, ?_⟩
  · rintro ⟨text, htext⟩
    obtain ⟨manifest, result, hread, hresult, -⟩ := patch_eq_ok_iff.1 htext
    obtain ⟨before, hentries, -⟩ := patchObject_eq_ok_iff.1 hresult
    exact ⟨manifest, before, hread, entries_eq_ok_iff.1 hentries⟩
  · rintro ⟨manifest, before, hread, hbefore⟩
    obtain ⟨result, -, htext⟩ := exists_patch ctx names hread hbefore
    exact ⟨_, htext⟩
  · intro manifest before hread hbefore
    obtain ⟨result, hresult, htext⟩ := exists_patch ctx names hread hbefore
    have hdistinct := Value.distinct_of_read? hread
    have hpatch := isPatch_of_patchObject hdistinct.1 hbefore hresult
    refine ⟨result, hpatch, htext, fun hctx hfits => ?_⟩
    rw [← Layout.text_pretty]
    exact Layout.value_read?_text _ hfits (hpatch.distinct hctx hdistinct hbefore)

/-! ## Directories listed once -/

/-- **A patch lists no root a second time, letter by letter.** It lists no
directory a second time, where slashes at the end of a root do not count,
exactly if no root that it adds is spelled in another way as well. -/
theorem patch_lists_once_iff (ctx : Context) (names : List String)
    (hread : Value.read? source = some (.object manifest)) (hbefore : Lists manifest before) :
    ∃ (result : Object) (added : List Value),
      patch ctx names source = .ok (Value.object result).pretty ∧
      result.get? subPackages = some (.array (before ++ added)) ∧ ListsOnce id before added ∧
      (ListsOnce Path.trimSlashes before added ↔ ToldApart Path.trimSlashes ctx names before) := by
  obtain ⟨result, hresult, htext⟩ := exists_patch ctx names hread hbefore
  have hlist := (isPatch_of_patchObject (Value.distinct_of_read? hread).1 hbefore hresult).listed
  rw [List.append_assoc] at hlist
  have hletters : ToldApart id ctx names before := fun root _ _ other _ heq => heq
  exact ⟨result, added ctx names before, htext, hlist, listsOnce_iff.2 hletters, listsOnce_iff⟩

/-- An entry whose root ends in a slash. -/
def slashedEntry : Value := .object [("root", .string "subA/"), ("pages", .array [])]

/-- A root manifest that lists a subpackage with a slash at its end. -/
def slashedManifest : Object := [("subPackages", .array [slashedEntry])]

/-- The subpackage is declared without pages and has an asset, so that it is
listed a second time, without the slash. -/
theorem subA_listed_twice :
    Value.read? (Value.object slashedManifest).pretty = some (.object slashedManifest) ∧
      Lists slashedManifest [slashedEntry] ∧
      ∃ (result : Object) (added : List Value),
        patch twoSubpackages ["subA/x.js"] (Value.object slashedManifest).pretty =
          .ok (Value.object result).pretty ∧
        result.get? subPackages = some (.array (slashedEntry :: added)) ∧
        ListsOnce id [slashedEntry] added ∧ ¬ ListsOnce Path.trimSlashes [slashedEntry] added := by
  have hread : Value.read? (Value.object slashedManifest).pretty = some (.object slashedManifest) := by
    decide +kernel
  have hbefore : Lists slashedManifest [slashedEntry] := .inl rfl
  have htwice : ¬ ToldApart Path.trimSlashes twoSubpackages ["subA/x.js"] [slashedEntry] := by
    intro h
    have hsame := h "subA" (by decide) (by decide) "subA/" (by decide) (by decide)
    revert hsame
    decide
  obtain ⟨result, added, htext, hlist, hletters, hiff⟩ :=
    patch_lists_once_iff twoSubpackages ["subA/x.js"] hread hbefore
  exact ⟨hread, hbefore, result, added, htext, hlist, hletters, fun h => htwice (hiff.1 h)⟩

end RootManifest

end SplitBuild
