import SplitBuild.Proofs.Script.Regions
import SplitBuild.Script.RuntimeBundle
/-!
# Resolving makes no stylesheet lookup

The check of the runtime bundle comes before its loads are resolved. What
is put in for a load or a region begins and ends with characters that the
forbidden lookup lacks, and otherwise repeats what was read or steps up to
the output root. So **a script without the lookup has none once it is
resolved** (`not_contains_resolve`).
-/

namespace SplitBuild

namespace Script

open RuntimeBundle (stylesheetLookup)

variable {asset : String} {s rest : List Char}

/-! ## Loads -/

theorem not_infix_resolved {call : LoadCall} (hcomment : ¬ stylesheetLookup.toList <:+: call.comment)
    (hid : ¬ stylesheetLookup.toList <:+: call.id) :
    ¬ stylesheetLookup.toList <:+: call.resolved asset ".js" := by
  have hstart : stylesheetLookup.toList = 'd' :: "ocument.getElementsByTagName".toList := by decide
  have hupward : 'd' ∉ (Path.upward asset).toList := fun h => absurd (mem_upward h) (by decide)
  -- the lookup does not end in a point, and has no `j`
  have hpoint : ¬ stylesheetLookup.toList <:+: call.id ++ ['.'] := by
    rw [List.infix_concat_iff]
    rintro (hsuffix | hinfix)
    · have hlast := List.IsSuffix.getLast hsuffix (by decide)
      rw [List.getLast_append_singleton] at hlast
      revert hlast
      decide
    · exact hid hinfix
  have hpath : ¬ stylesheetLookup.toList <:+:
      (Path.upward asset).toList ++ ((call.id ++ ['.']) ++ ['j', 's']) := by
    refine Text.not_infix_of_nowhere (by decide) (Text.nowhere_append.2 ⟨?_, Text.nowhere_append.2 ⟨?_, ?_⟩⟩)
    · rw [hstart]
      exact Text.nowhere_of_not_mem hupward
    · exact Text.nowhere_of_head hpoint (by simp [stylesheetLookup])
    · rw [hstart]
      exact Text.nowhere_of_not_mem (by decide)
  have hresolved : call.resolved asset ".js" = hostLoad.toList ++ '(' :: (call.comment ++ '"' ::
      ((Path.upward asset).toList ++ ((call.id ++ ['.']) ++ ['j', 's']) ++ '"' :: [')'])) := by
    simp [LoadCall.resolved, Path.relative]
  rw [hresolved]
  refine Text.not_infix_append_cons (by decide) (by decide) ?_
  refine Text.not_infix_append_cons (by decide) hcomment ?_
  exact Text.not_infix_append_cons (by decide) hpath (by decide)

/-- An edit that resolves a call has read one. -/
theorem exists_of_resolution {new : List Char}
    (h : LoadCall.resolution asset ".js" s = some (new, rest)) :
    ∃ call, LoadCall.read? s = some (call, rest) ∧ new = call.resolved asset ".js" := by
  obtain ⟨p, hp, hpair⟩ := Option.map_eq_some_iff.1 h
  obtain ⟨rfl, rfl⟩ := Prod.mk.inj hpair
  exact ⟨p.1, hp, rfl⟩

/-- What is put in for a load call leaves the lookup out. -/
theorem resolution_avoids :
    Text.Avoids (LoadCall.resolution asset ".js") stylesheetLookup.toList where
  suffix {s new rest} h := by
    obtain ⟨call, hread, -⟩ := exists_of_resolution h
    have hs := LoadCall.eq_append_of_read? hread
    rw [hs]
    exact ⟨loadMarker.toList ++ ['('] ++ (call.comment ++ '"' :: (call.id ++ ['"', ')'])), by simp⟩
  first h := by
    obtain ⟨call, -, rfl⟩ := exists_of_resolution h
    exact ⟨'r', _, rfl, by decide⟩
  last h := by
    obtain ⟨call, -, rfl⟩ := exists_of_resolution h
    exact ⟨_, ')', (List.append_assoc _ ['"'] [')']).symm, by decide⟩
  clean {s new rest} h hs := by
    obtain ⟨call, hread, rfl⟩ := exists_of_resolution h
    rw [LoadCall.eq_append_of_read? hread] at hs
    refine not_infix_resolved (fun hi => hs (hi.trans ?_)) (fun hi => hs (hi.trans ?_))
    · exact ⟨_, _, List.append_assoc _ _ _⟩
    · exact ⟨loadMarker.toList ++ ['('] ++ (call.comment ++ ['"']), ['"', ')'] ++ rest, by simp⟩

/-! ## Regions -/

namespace Region

theorem suffix_of_close? (h : close? s = some rest) : rest <:+ s := by
  rw [close?, Text.after?_eq_some_iff] at h
  have htrim : '}' :: rest <:+ (Text.after? [';'] s).getD s := by
    rw [List.singleton_append] at h
    rw [← h]
    exact List.dropWhile_suffix _
  have hsemicolon : (Text.after? [';'] s).getD s <:+ s := by
    cases hafter : Text.after? [';'] s with
    | none => exact List.suffix_refl s
    | some t =>
      rw [Text.after?_eq_some_iff] at hafter
      exact ⟨[';'], hafter.symm⟩
  exact ((List.suffix_cons '}' rest).trans htrim).trans hsemicolon

theorem suffix_of_rest? (h : rest? s = some rest) : rest <:+ s := by
  induction s with
  | nil => cases h
  | cons c cs ih =>
    rw [rest?] at h
    split at h
    · rename_i t hclose
      obtain rfl := Option.some.inj h
      obtain ⟨after, hafter, hclose⟩ := Option.bind_eq_some_iff.1 hclose
      rw [Text.after?_eq_some_iff] at hafter
      rw [hafter]
      exact (suffix_of_close? hclose).trans (List.suffix_append _ after)
    · exact (ih h).trans (List.suffix_cons c cs)

/-- What follows a region is an end of the text. -/
theorem suffix_of_read? (h : read? s = some rest) : rest <:+ s := by
  obtain ⟨body, hbody, h⟩ := Option.bind_eq_some_iff.1 h
  obtain ⟨inside, hinside, h⟩ := Option.bind_eq_some_iff.1 h
  rw [Text.after?_eq_some_iff] at hbody hinside
  have htrim : inside <:+ Text.trimStart body := ⟨_, hinside.symm⟩
  have hbody : body <:+ s := ⟨_, hbody.symm⟩
  exact ((suffix_of_rest? h).trans htrim).trans ((List.dropWhile_suffix _).trans hbody)

/-- An edit that removes a region has read one and leaves its braces. -/
theorem of_removal {new : List Char} (h : removal s = some (new, rest)) :
    new = ['{', '}'] ∧ read? s = some rest := by
  obtain ⟨t, ht, hpair⟩ := Option.map_eq_some_iff.1 h
  obtain ⟨rfl, rfl⟩ := Prod.mk.inj hpair
  exact ⟨rfl, ht⟩

end Region

/-- So do the braces that are left of a region. -/
theorem removal_avoids : Text.Avoids Region.removal stylesheetLookup.toList where
  suffix h := Region.suffix_of_read? (Region.of_removal h).2
  first h := ⟨'{', ['}'], (Region.of_removal h).1, by decide⟩
  last h := ⟨['{'], '}', (Region.of_removal h).1, by decide⟩
  clean h _ := by
    rw [(Region.of_removal h).1]
    decide

/-- **A script without the lookup has none once it is resolved.** -/
theorem not_contains_resolve {source : String}
    (h : ¬ Text.contains stylesheetLookup.toList source.toList) :
    ¬ Text.contains stylesheetLookup.toList (resolve asset ".js" source).toList := by
  rw [Text.contains_iff] at h ⊢
  rw [resolve, String.toList_ofList]
  exact Text.not_infix_editAll removal_avoids (Text.not_infix_editAll resolution_avoids h)

end Script

namespace RuntimeBundle

/-- The check passes where the runtime bundle is no asset or has no lookup. -/
theorem checkStylesheets_eq_nil_iff {ctx : Context} {assets : AssetTable} :
    checkStylesheets ctx assets = [] ↔ ∀ source, assets.source? (assetName ctx) = some source →
      ¬ Text.contains stylesheetLookup.toList source.toList := by
  rw [checkStylesheets]
  cases assets.source? (assetName ctx) with
  | none => simp
  | some source => simp

end RuntimeBundle

end SplitBuild
