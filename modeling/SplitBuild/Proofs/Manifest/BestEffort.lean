import SplitBuild.Proofs.Manifest.Assets
import SplitBuild.Proofs.Manifest.Outcome
/-!
# The root manifest among the assets

A patch of the assets writes the root manifest where the patch of its text
goes through and is another text (`rewritten?_eq_some_iff`), and leaves the
table alone otherwise. So **it does what it can, as a whole or not at all,
and only once** (`patchAsset_best_effort`): nothing but the root manifest
changes, a manifest that cannot be patched stays, and a second call finds
nothing to change, whether or not the first one did. The second call may
find a text that it cannot read, but no other value than was written; this
is so wherever numbers are read back (`notMisread_written`).
-/

namespace SplitBuild

open Json

namespace RootManifest

variable {ctx : Context} {assets : AssetTable} {names : List String}
variable {name source text : String}

/-- The root manifest gets a new text where its patch goes through and is
another text. -/
theorem rewritten?_eq_some_iff : rewritten? ctx names name source = some text ↔
    name = ctx.appManifest ∧ patch ctx names source = .ok text ∧ text ≠ source := by
  unfold rewritten?
  by_cases hname : name = ctx.appManifest
  · rw [if_pos hname, and_iff_right hname]
    cases patch ctx names source with
    | error flaw => simp
    | ok patched =>
      by_cases hsame : patched = source
      · simp only [hsame, if_true, Except.ok.injEq]
        exact iff_of_false nofun fun h => h.2 h.1.symm
      · simp only [hsame, if_false, Option.some.injEq, Except.ok.injEq]
        exact ⟨fun h => ⟨h, h ▸ hsame⟩, And.left⟩
  · rw [if_neg hname]
    exact iff_of_false nofun fun h => hname h.1

/-- The assets change where the root manifest does. -/
theorem changes_iff : changes ctx assets ↔ ∃ source text,
    assets.source? ctx.appManifest = some source ∧
      patch ctx assets.names source = .ok text ∧ text ≠ source := by
  simp only [changes, Option.isSome_iff_exists, Option.bind_eq_some_iff, rewritten?_eq_some_iff,
    true_and]
  constructor
  · rintro ⟨text, source, hsource, hpatch⟩
    exact ⟨source, text, hsource, hpatch⟩
  · rintro ⟨source, text, hsource, hpatch⟩
    exact ⟨text, source, hsource, hpatch⟩

/-- A patch that changes nothing leaves the table. -/
theorem patchAsset_eq_self (h : ¬ changes ctx assets) : patchAsset ctx assets = assets := by
  refine AssetTable.rewrite_eq_self fun name source hsource => ?_
  refine Option.eq_none_iff_forall_ne_some.2 fun text htext => h ?_
  obtain ⟨rfl, hpatch, hne⟩ := rewritten?_eq_some_iff.1 htext
  exact changes_iff.2 ⟨source, text, hsource, hpatch, hne⟩

/-- No asset but the root manifest changes. -/
theorem getElem?_patchAsset_of_ne (h : name ≠ ctx.appManifest) :
    (patchAsset ctx assets)[name]? = assets[name]? :=
  AssetTable.getElem?_rewrite_of_none fun _ => if_neg h

/-- **A table is said to change exactly if the bytes of its root manifest
do.** -/
theorem changes_iff_getElem?_ne : changes ctx assets ↔
    (patchAsset ctx assets)[ctx.appManifest]? ≠ assets[ctx.appManifest]? := by
  constructor
  · intro h
    obtain ⟨source, text, hsource, hpatch, hne⟩ := changes_iff.1 h
    have htext := rewritten?_eq_some_iff.2 ⟨rfl, hpatch, hne⟩
    exact AssetTable.getElem?_rewrite_ne hsource htext hne
  · intro hne
    by_contra hstays
    rw [patchAsset_eq_self hstays] at hne
    exact hne rfl

/-- Where the patch goes through, the root manifest has its text. -/
theorem source?_patchAsset (hsource : assets.source? ctx.appManifest = some source)
    (hpatch : patch ctx assets.names source = .ok text) :
    (patchAsset ctx assets).source? ctx.appManifest = some text := by
  rw [patchAsset, AssetTable.source?_rewrite, hsource, Option.map_some, Option.some.injEq]
  by_cases hsame : text = source
  · have hnone : rewritten? ctx assets.names ctx.appManifest source = none := by
      refine Option.eq_none_iff_forall_ne_some.2 fun other hother => ?_
      obtain ⟨-, hother, hne⟩ := rewritten?_eq_some_iff.1 hother
      obtain rfl : text = other := Except.ok.inj (hpatch.symm.trans hother)
      exact hne hsame
    rw [hnone, hsame, Option.getD_none]
  · rw [rewritten?_eq_some_iff.2 ⟨rfl, hpatch, hsame⟩, Option.getD_some]

/-- A root manifest that cannot be patched changes nothing. -/
theorem not_changes_of_error {flaw : Flaw} (hsource : assets.source? ctx.appManifest = some source)
    (hpatch : patch ctx assets.names source = .error flaw) : ¬ changes ctx assets := by
  intro h
  obtain ⟨other, text, hother, hok, -⟩ := changes_iff.1 h
  obtain rfl : source = other := Option.some.inj (hsource.symm.trans hother)
  rw [hpatch] at hok
  cases hok

/-- **A second patch changes nothing.** -/
theorem not_changes_patchAsset (hback : ∀ v ∈ written ctx assets, v.NotMisread) :
    ¬ changes ctx (patchAsset ctx assets) := by
  intro h
  obtain ⟨source, text, hsource, hpatch⟩ := changes_iff.1 h
  have hnone := isPatched_patchAsset hback source hsource
  rw [rewritten?_eq_some_iff.2 ⟨rfl, hpatch⟩] at hnone
  cases hnone

/-! ## Reading what was written -/

/-- What is written is the patched object of the root manifest. -/
theorem patched_of_mem_written {v : Value} (h : v ∈ written ctx assets) :
    ∃ source manifest result, assets.source? ctx.appManifest = some source ∧
      Value.read? source = some (.object manifest) ∧
      patchObject ctx assets.names manifest = .ok result ∧ v = .object result := by
  rw [written, Option.mem_toList, Option.bind_eq_some_iff] at h
  obtain ⟨source, hsource, h⟩ := h
  obtain ⟨manifest, hmanifest, h⟩ := Option.bind_eq_some_iff.1 h
  obtain ⟨w, hread, hw⟩ := Option.bind_eq_some_iff.1 hmanifest
  obtain rfl := Value.eq_object_of_entries? hw
  split at h
  · rename_i result hresult
    split at h
    · cases h
    · exact ⟨source, manifest, result, hsource, hread, hresult, (Option.some.inj h).symm⟩
  · cases h

/-- **What a patch writes is not misread**, where the subpackages of the build
are such as are read and numbers are read back. -/
theorem notMisread_written (hctx : ListsWellFormed ctx)
    (hnumbers : ∀ v ∈ written ctx assets, v.NumbersReadBack) :
    ∀ v ∈ written ctx assets, v.NotMisread := by
  intro v hv
  have hback := hnumbers v hv
  obtain ⟨source, manifest, result, -, hread, hresult, rfl⟩ := patched_of_mem_written hv
  obtain ⟨before, hentries, -⟩ := patchObject_eq_ok_iff.1 hresult
  have hbefore := entries_eq_ok_iff.1 hentries
  have hmanifest := Value.distinct_of_read? hread
  have hpatch := isPatch_of_patchObject hmanifest.1 hbefore hresult
  exact Value.notMisread_of_distinct (hpatch.distinct hctx hmanifest hbefore) hback

/-! ## The table as a whole -/

/-- **A patch of the assets does what it can, as a whole or not at all, and
only once.** It adds and removes no asset and changes none but the root
manifest, and it is said to change the table exactly if the bytes of the root
manifest change. Where the patch of its text goes through, the root manifest
has the patched text, and where it fails the table stays. A second patch
changes nothing, provided that what the first one wrote is not misread. -/
theorem patchAsset_best_effort (ctx : Context) (assets : AssetTable) :
    (patchAsset ctx assets).names = assets.names ∧
    (∀ name, name ≠ ctx.appManifest → (patchAsset ctx assets)[name]? = assets[name]?) ∧
    (changes ctx assets = true ↔
      (patchAsset ctx assets)[ctx.appManifest]? ≠ assets[ctx.appManifest]?) ∧
    (∀ source text, assets.source? ctx.appManifest = some source →
      patch ctx assets.names source = .ok text →
        (patchAsset ctx assets).source? ctx.appManifest = some text) ∧
    (∀ source flaw, assets.source? ctx.appManifest = some source →
      patch ctx assets.names source = .error flaw →
        patchAsset ctx assets = assets ∧ changes ctx assets = false) ∧
    ((∀ v ∈ written ctx assets, v.NotMisread) →
      patchAsset ctx (patchAsset ctx assets) = patchAsset ctx assets ∧
        changes ctx (patchAsset ctx assets) = false) := by
  refine ⟨AssetTable.names_rewrite assets _, fun name => getElem?_patchAsset_of_ne,
    changes_iff_getElem?_ne, fun source text => source?_patchAsset, ?_, ?_⟩
  · intro source flaw hsource hpatch
    have hstays := not_changes_of_error hsource hpatch
    exact ⟨patchAsset_eq_self hstays, Bool.eq_false_iff.2 hstays⟩
  · intro hback
    have hstays := not_changes_patchAsset hback
    exact ⟨patchAsset_eq_self hstays, Bool.eq_false_iff.2 hstays⟩

/-- A root manifest without subpackages, beside an asset of one that is
declared without pages. -/
def unlistedAsset : AssetTable :=
  .ofList [("app.json", "\x7b\"subPackages\": []\x7d".toUTF8), ("subA/x.js", "x".toUTF8)]

/-- The first patch lists the subpackage and the second one finds it listed. -/
theorem subA_listed_by_first_patch :
    (∀ v ∈ written twoSubpackages unlistedAsset, v.NotMisread) ∧
      changes twoSubpackages unlistedAsset = true ∧
      changes twoSubpackages (patchAsset twoSubpackages unlistedAsset) = false := by
  have hback : ∀ v ∈ written twoSubpackages unlistedAsset, v.ReadsBack := by decide +kernel
  have hwritten : ∀ v ∈ written twoSubpackages unlistedAsset, v.NotMisread :=
    fun v hv => (hback v hv).notMisread
  have hchanges : changes twoSubpackages unlistedAsset = true := by decide +kernel
  obtain ⟨-, -, -, -, -, hagain⟩ := patchAsset_best_effort twoSubpackages unlistedAsset
  exact ⟨hwritten, hchanges, (hagain hwritten).2⟩

end RootManifest

end SplitBuild
