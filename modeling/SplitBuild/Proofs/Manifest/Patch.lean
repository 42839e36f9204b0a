import SplitBuild.Proofs.Manifest.Again
import SplitBuild.Proofs.Manifest.Listing
/-!
# Patching the root manifest again

The list of subpackages is complete after a patch (`listed_listed`), and
what a patch does to the other entries is the same a second time. **A patched
manifest is left as it is** (`patchObject_patched`). A patch also leaves a
manifest merged that was merged before: it keeps the placeholders and only
drops components in use (`merged_patched`).
-/

namespace SplitBuild

open Json

namespace RootManifest

variable {ctx : Context} {names : List String} {options : Options}
variable {manifest result : Object} {k : String}

/-! ## The other entries -/

theorem get?_dropComponents_of_ne (h : usingComponents ≠ k) :
    (dropComponents options manifest).get? k = manifest.get? k := by
  unfold dropComponents
  split
  · rw [Keyed.get?_put, if_neg h]
  · rfl

/-- The global components that are left are among those that were there, and
none is one to drop. -/
theorem components_of_dropComponents {components : Object}
    (h : (dropComponents options manifest).get? usingComponents = some (.object components)) :
    ∃ all, manifest.get? usingComponents = some (.object all) ∧
      components = all.filter fun e => e.1 ∉ options.deleteComponents := by
  unfold dropComponents at h
  split at h
  · rename_i all hall
    rw [Keyed.get?_put, if_pos rfl, Option.some.injEq, Value.object.injEq] at h
    exact ⟨all, hall, h.symm⟩
  · rename_i hnone
    exact absurd h (hnone components)

theorem dropComponents_eq_self
    (h : ∀ components, manifest.get? usingComponents = some (.object components) →
      (components.filter fun e => e.1 ∉ options.deleteComponents) = components) :
    dropComponents options manifest = manifest := by
  unfold dropComponents
  split
  · rename_i components hcomponents
    rw [h components hcomponents]
    exact Keyed.put_eq_self hcomponents
  · rfl

theorem get?_setLazyLoading_of_ne (h : lazyCodeLoading ≠ k) :
    (setLazyLoading options manifest).get? k = manifest.get? k := by
  unfold setLazyLoading
  split
  · rfl
  · rw [Keyed.get?_erase, if_neg h]
  · rw [Keyed.get?_put, if_neg h]

theorem setLazyLoading_setLazyLoading :
    setLazyLoading options (setLazyLoading options manifest) = setLazyLoading options manifest := by
  cases h : options.lazyCodeLoading with
  | none => simp only [setLazyLoading, h]
  | some flag =>
    by_cases hflag : flag = ""
    · subst hflag
      simp only [setLazyLoading, h, Keyed.erase, List.filter_filter, Bool.and_self]
    · simp only [setLazyLoading, h, Keyed.put_put]

/-! ## Patching twice -/

theorem patchObject_eq_ok_iff : patchObject ctx names manifest = .ok result ↔
    ∃ before, entries manifest = .ok before ∧ result = setLazyLoading ctx.options
      (dropComponents ctx.options (manifest.put subPackages (.array (listed ctx names before)))) := by
  rw [patchObject]
  cases entries manifest with
  | error flaw =>
    change Except.error flaw = Except.ok result ↔ _
    simp
  | ok before =>
    change Except.ok _ = Except.ok result ↔ _
    simp [eq_comm]

theorem get?_subPackages_of_patchObject (h : patchObject ctx names manifest = .ok result) :
    ∃ before, result.get? subPackages = some (.array (listed ctx names before)) := by
  obtain ⟨before, -, rfl⟩ := patchObject_eq_ok_iff.1 h
  refine ⟨before, ?_⟩
  rw [get?_setLazyLoading_of_ne (by decide), get?_dropComponents_of_ne (by decide), Keyed.get?_put,
    if_pos rfl]

/-- Entries that a patch does not know of stay. -/
theorem get?_of_patchObject (h : patchObject ctx names manifest = .ok result)
    (hk : k ∉ [subPackages, usingComponents, lazyCodeLoading]) : result.get? k = manifest.get? k := by
  simp only [List.mem_cons, List.not_mem_nil, or_false, not_or] at hk
  obtain ⟨before, -, rfl⟩ := patchObject_eq_ok_iff.1 h
  rw [get?_setLazyLoading_of_ne (Ne.symm hk.2.2), get?_dropComponents_of_ne (Ne.symm hk.2.1),
    Keyed.get?_put, if_neg (Ne.symm hk.1)]

theorem components_of_patchObject {components : Object}
    (h : patchObject ctx names manifest = .ok result)
    (hcomponents : result.get? usingComponents = some (.object components)) :
    ∃ all, manifest.get? usingComponents = some (.object all) ∧
      components = all.filter fun e => e.1 ∉ ctx.options.deleteComponents := by
  obtain ⟨before, -, rfl⟩ := patchObject_eq_ok_iff.1 h
  rw [get?_setLazyLoading_of_ne (by decide)] at hcomponents
  obtain ⟨all, hall, rfl⟩ := components_of_dropComponents hcomponents
  rw [Keyed.get?_put, if_neg (by decide)] at hall
  exact ⟨all, hall, rfl⟩

/-- **A patched manifest is left as it is.** -/
theorem patchObject_patched (h : patchObject ctx names manifest = .ok result) :
    patchObject ctx names result = .ok result := by
  obtain ⟨before, hlist⟩ := get?_subPackages_of_patchObject h
  have hentries : entries result = .ok (listed ctx names before) := by rw [entries, hlist]
  have hput : result.put subPackages (.array (listed ctx names (listed ctx names before))) = result := by
    rw [listed_listed]
    exact Keyed.put_eq_self hlist
  have hdrop : dropComponents ctx.options result = result := by
    refine dropComponents_eq_self fun components hcomponents => ?_
    obtain ⟨all, -, rfl⟩ := components_of_patchObject h hcomponents
    rw [List.filter_filter]
    simp only [Bool.and_self]
  have hlazy : setLazyLoading ctx.options result = result := by
    obtain ⟨before, -, rfl⟩ := patchObject_eq_ok_iff.1 h
    exact setLazyLoading_setLazyLoading
  exact patchObject_eq_ok_iff.2 ⟨_, hentries, by rw [hput, hdrop, hlazy]⟩

/-! ## Patching a text -/

variable {source text name : String}

/-- A patch goes through where the text is an object that can be patched. -/
theorem patch_eq_ok_iff : patch ctx names source = .ok text ↔
    ∃ manifest result, Value.read? source = some (.object manifest) ∧
      patchObject ctx names manifest = .ok result ∧ text = (Value.object result).pretty := by
  unfold patch
  constructor
  · intro h
    split at h
    · cases h
    · rename_i manifest hread
      cases hresult : patchObject ctx names manifest with
      | error flaw =>
        rw [hresult] at h
        cases h
      | ok result =>
        rw [hresult] at h
        exact ⟨manifest, result, hread, hresult, (Except.ok.inj h).symm⟩
    · cases h
  · rintro ⟨manifest, result, hread, hresult, rfl⟩
    rw [hread]
    change Except.map _ (patchObject ctx names manifest) = _
    rw [hresult]
    rfl

/-- The text of a patched manifest is left as it is, where it is not taken for
another one: a text that cannot be read is left too. -/
theorem rewritten?_patched (hpatch : patchObject ctx names manifest = .ok result)
    (hback : (Value.object result).NotMisread) :
    rewritten? ctx names name (Value.object result).pretty = none := by
  unfold rewritten?
  split
  · cases hagain : patch ctx names (Value.object result).pretty with
    | error flaw => rfl
    | ok text =>
      obtain ⟨manifest', result', hread, hresult, rfl⟩ := patch_eq_ok_iff.1 hagain
      obtain rfl : manifest' = result := Value.object.inj (hback _ hread)
      obtain rfl := Except.ok.inj ((patchObject_patched hpatch).symm.trans hresult)
      exact if_pos rfl
  · rfl

/-- A new text is that of a patched manifest. -/
theorem patched_of_rewritten? (h : rewritten? ctx names name source = some text) :
    name = ctx.appManifest ∧ ∃ manifest result, Value.read? source = some (.object manifest) ∧
      patchObject ctx names manifest = .ok result ∧ text = (Value.object result).pretty ∧
      text ≠ source := by
  unfold rewritten? at h
  split at h
  · rename_i hname
    refine ⟨hname, ?_⟩
    split at h
    · rename_i patched hpatch
      split at h
      · cases h
      · rename_i hne
        obtain rfl := Option.some.inj h
        obtain ⟨manifest, result, hread, hresult, htext⟩ := patch_eq_ok_iff.1 hpatch
        exact ⟨manifest, result, hread, hresult, htext, hne⟩
    · cases h
  · cases h

end RootManifest

namespace ComponentManifest

/-! ## Merged manifests that are patched -/

variable {ctx : Context} {component : String} {fragment : Fragment} {manifest result : Object}
variable {names : List String}

/-- Where the fragment brings in no component, a merge changes nothing
exactly if the placeholders are held. -/
theorem merged_eq_self_iff (hused : fragment.usingComponents = []) :
    merged ctx component fragment manifest = manifest ↔ Holds manifest componentPlaceholder
      (autoPlaceholders ctx component manifest ++ fragment.componentPlaceholder) := by
  rw [← overlay_eq_self_iff, ← overlay_overlay, merged, hused]
  rfl

theorem merged_merged_of_nil (hused : fragment.usingComponents = [])
    (hnodup : (Keyed.keys (inner manifest usingComponents)).Nodup) :
    merged ctx component fragment (merged ctx component fragment manifest) =
      merged ctx component fragment manifest := by
  refine (merged_merged_eq_iff hnodup).2 fun k path hpath => ?_
  rw [hused] at hpath
  cases hpath

/-- **A patch leaves a manifest merged.** It drops components in use, which
need no placeholder then, and keeps the placeholders. -/
theorem merged_patched (hused : fragment.usingComponents = [])
    (hmerged : merged ctx component fragment manifest = manifest)
    (hpatch : RootManifest.patchObject ctx names manifest = .ok result) :
    merged ctx component fragment result = result := by
  rw [merged_eq_self_iff hused] at hmerged ⊢
  have hplaced : inner result componentPlaceholder = inner manifest componentPlaceholder := by
    rw [inner, inner, RootManifest.get?_of_patchObject hpatch (by decide)]
  have hin : ∀ e ∈ inner result usingComponents, e ∈ inner manifest usingComponents := by
    intro e he
    have hobject := get?_of_inner_ne_nil (List.ne_nil_of_mem he)
    obtain ⟨all, hall, hfilter⟩ := RootManifest.components_of_patchObject hpatch hobject
    have hall : manifest.get? usingComponents = some (.object all) := hall
    rw [hfilter] at he
    rw [inner_of_get? hall]
    exact (List.mem_filter.1 he).1
  have hauto : ∀ k, k ∈ Keyed.keys (autoPlaceholders ctx component result) →
      k ∈ Keyed.keys (autoPlaceholders ctx component manifest) := by
    intro k hk
    obtain ⟨path, hmem, hcross⟩ := mem_keys_autoPlaceholders_iff.1 hk
    exact mem_keys_autoPlaceholders_iff.2 ⟨path, hin _ hmem, hcross⟩
  intro k s hs
  rw [hplaced]
  refine hmerged k s ?_
  -- a declared placeholder counts in both, and an automatic one is the same tag
  rw [Keyed.get?_ofList_append] at hs ⊢
  cases hdeclared : (Keyed.ofList fragment.componentPlaceholder).get? k with
  | some declared => rwa [hdeclared] at hs
  | none =>
    rw [hdeclared, Option.none_or, get?_ofList_autoPlaceholders] at hs
    split at hs
    · rename_i hk
      rw [Option.none_or, get?_ofList_autoPlaceholders, if_pos (hauto k hk)]
      exact hs
    · cases hs

end ComponentManifest

end SplitBuild
