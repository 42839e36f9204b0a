import SplitBuild.Bundle.Groups
import SplitBuild.Proofs.Placement.VendorBundle
/-!
# A vendor bundle for every placed module

The placements of modules and the split groups are made apart: the first
find the roots of subpackages by matching, the second take them as they
are declared. They fit together all the same. Whatever the policy, a
module goes into a package of the build (`hasPackage_of_decide`), and
there is one group for each of them, told from the others by its key and
by its bundle (`groupKey_injective`, `vendorBundleFor_injective`).
-/

namespace SplitBuild

variable {ctx : Context} {g : ModuleGraph} {m : Module} {p q : Package} {id root : String}

/-! ## The packages of a build -/

/-- A name that ends alike for all subpackages, and is shorter for the main
package, tells the packages apart. -/
theorem Package.injective_of_suffix {name : Package → String} {suffix : String}
    (hsubpackage : ∀ root, name (.subpackage root) = root ++ suffix)
    (hmain : (name .main).length < suffix.length) : Function.Injective name := by
  have hlonger : ∀ root, name .main ≠ name (.subpackage root) := by
    intro root h
    rw [h, hsubpackage, String.length_append] at hmain
    omega
  intro p q h
  cases p with
  | main =>
    cases q with
    | main => rfl
    | subpackage root => exact absurd h (hlonger root)
  | subpackage root =>
    cases q with
    | main => exact absurd h.symm (hlonger root)
    | subpackage other =>
      rw [hsubpackage, hsubpackage, String.append_left_inj] at h
      rw [h]

namespace Context

/-- A build has the main package and its declared subpackages. -/
def HasPackage (ctx : Context) (p : Package) : Prop :=
  p = .main ∨ ∃ s ∈ ctx.subpackages.members, p = .subpackage s.root

/-- **No two packages share a vendor bundle.** -/
theorem vendorBundleFor_injective (ctx : Context) : Function.Injective ctx.vendorBundleFor := by
  refine Package.injective_of_suffix (fun root => String.append_assoc) ?_
  have hslash : "/".length = 1 := rfl
  rw [vendorBundleFor, String.length_append]
  omega

end Context

/-! ## Placed modules -/

namespace Placement

theorem package?_eq_none_iff {placement : Placement} :
    placement.package? = none ↔ placement = .unsplit := by
  cases placement <;> simp [package?]

/-- Under the strict policy a script goes into a declared subpackage, or
into the main package. -/
theorem exists_member_of_placeStrict (h : (placeStrict ctx m).placement = .subpackage root) :
    ∃ s ∈ ctx.subpackages.members, s.root = root := by
  unfold placeStrict at h
  split at h
  · rename_i s hs
    obtain ⟨resource, -, hmatching⟩ := Option.bind_eq_some_iff.1 hs
    exact ⟨s, SubpackageSet.mem_of_matching hmatching, Placement.subpackage.inj h⟩
  · cases h

/-- The subpackage that a script goes into is declared. -/
theorem exists_member_of_placed (h : (decide ctx g m).placement = .subpackage root) :
    ∃ s ∈ ctx.subpackages.members, s.root = root := by
  cases hpolicy : ctx.policy with
  | strict =>
    unfold decide at h
    rw [hpolicy] at h
    split at h
    · cases h
    · split at h
      · cases h
      · exact exists_member_of_placeStrict h
  | compat => exact exists_member_of_decide hpolicy h

/-- **A module goes into a package of the build**, whatever the policy. -/
theorem hasPackage_of_decide (h : (decide ctx g m).placement.package? = some p) :
    ctx.HasPackage p := by
  cases hplacement : (decide ctx g m).placement with
  | main =>
    rw [hplacement] at h
    exact .inl (Option.some.inj h).symm
  | subpackage root =>
    rw [hplacement] at h
    obtain ⟨s, hs, rfl⟩ := exists_member_of_placed hplacement
    exact .inr ⟨s, hs, (Option.some.inj h).symm⟩
  | unsplit =>
    rw [hplacement] at h
    cases h

end Placement

namespace Placements

theorem mem_modulesIn_iff : id ∈ (ofGraph ctx g).modulesIn p ↔
    ∃ placement, (ofGraph ctx g).placement? id = some placement ∧ placement.package? = some p := by
  simp only [modulesIn, placement?, List.mem_map, List.mem_filter, decide_eq_true_eq,
    Option.map_eq_some_iff]
  constructor
  · rintro ⟨⟨id, decision⟩, ⟨hmem, hpackage⟩, rfl⟩
    exact ⟨_, ⟨decision, Keyed.get?_of_mem (Keyed.nodup_keys_ofList _) hmem, rfl⟩, hpackage⟩
  · rintro ⟨_, ⟨decision, hget, rfl⟩, hpackage⟩
    exact ⟨(id, decision), ⟨Keyed.mem_of_get? hget, hpackage⟩, rfl⟩

/-- A package lists a module once. -/
theorem nodup_modulesIn (ctx : Context) (g : ModuleGraph) (p : Package) :
    ((ofGraph ctx g).modulesIn p).Nodup := by
  have hkeys : (Keyed.keys (ofGraph ctx g)).Nodup := Keyed.nodup_keys_ofList _
  exact hkeys.sublist (List.filter_sublist.map Prod.fst)

theorem hasPackage_of_mem_modulesIn (h : id ∈ (ofGraph ctx g).modulesIn p) : ctx.HasPackage p := by
  obtain ⟨placement, hplacement, hpackage⟩ := mem_modulesIn_iff.1 h
  rw [placement?_ofGraph, Option.map_eq_some_iff] at hplacement
  obtain ⟨m, -, rfl⟩ := hplacement
  exact Placement.hasPackage_of_decide hpackage

/-- The decisions and the lists of the packages are of one mind about an id:
it is listed once, by a package of the build, unless it stays. -/
structure ListedOnce (ctx : Context) (g : ModuleGraph) (id : String) (placement : Placement) :
    Prop where
  of_unsplit : placement = .unsplit → ∀ p, id ∉ (ofGraph ctx g).modulesIn p
  of_placed : placement ≠ .unsplit → ∃ p, ctx.HasPackage p ∧
    ((ofGraph ctx g).modulesIn p).count id = 1 ∧ ∀ q, id ∈ (ofGraph ctx g).modulesIn q → q = p

/-- **Every module that does not stay is in one package.** -/
theorem listedOnce {placement : Placement}
    (h : (ofGraph ctx g).placement? id = some placement) : ListedOnce ctx g id placement := by
  have hlisted : ∀ p, id ∈ (ofGraph ctx g).modulesIn p ↔ placement.package? = some p := by
    intro p
    rw [mem_modulesIn_iff, h]
    exact ⟨fun ⟨_, he, hp⟩ => Option.some.inj he ▸ hp, fun hp => ⟨placement, rfl, hp⟩⟩
  constructor
  · rintro rfl p hp
    cases (hlisted p).1 hp
  · intro hplaced
    obtain ⟨p, hp⟩ : ∃ p, placement.package? = some p := by
      rw [← Option.ne_none_iff_exists', Ne, Placement.package?_eq_none_iff]
      exact hplaced
    have hmem := (hlisted p).2 hp
    refine ⟨p, hasPackage_of_mem_modulesIn hmem,
      List.count_eq_one_of_mem (nodup_modulesIn ctx g p) hmem, fun q hq => ?_⟩
    exact Option.some.inj (((hlisted q).1 hq).symm.trans hp)

end Placements

/-! ## Groups -/

namespace SplitOptions

theorem mem_packages_iff : p ∈ packages ctx ↔ ctx.HasPackage p := by
  rw [packages, List.mem_cons, Context.HasPackage, SubpackageSet.roots, List.map_map, List.mem_map]
  exact or_congr_right (exists_congr fun s => and_congr_right fun _ => eq_comm)

/-- **No two packages share the key of a group.** -/
theorem groupKey_injective : Function.Injective groupKey :=
  Package.injective_of_suffix (fun _ => rfl) (by decide)

theorem exists_package_of_mem_groups {e : String × SplitGroup} (h : e ∈ (ofContext ctx).groups) :
    ∃ p, ctx.HasPackage p ∧ e = (groupKey p, groupOf ctx p) := by
  obtain ⟨key, group⟩ := e
  obtain ⟨p, hp, heq⟩ := List.mem_map.1 (Keyed.mem_of_mem_ofList h)
  exact ⟨p, mem_packages_iff.1 hp, heq.symm⟩

theorem mem_groups_of_hasPackage (hp : ctx.HasPackage p) :
    (groupKey p, groupOf ctx p) ∈ (ofContext ctx).groups := by
  have hkey : groupKey p ∈ Keyed.keys ((packages ctx).map fun p => (groupKey p, groupOf ctx p)) := by
    rw [Keyed.keys, List.map_map]
    exact List.mem_map_of_mem (mem_packages_iff.2 hp)
  obtain ⟨group, hgroup⟩ := Option.isSome_iff_exists.1 (Keyed.isSome_get?_ofList_iff.2 hkey)
  have hmem : (groupKey p, group) ∈ (ofContext ctx).groups := Keyed.mem_of_get? hgroup
  -- an entry under the key of `p` is the group of `p`, however often `p` is declared
  obtain ⟨q, -, heq⟩ := exists_package_of_mem_groups hmem
  obtain ⟨hkeys, rfl⟩ := Prod.mk.inj heq
  obtain rfl : p = q := groupKey_injective hkeys
  exact hmem

/-- There is one group for each package of a build, told from the others by
its key and by its bundle. -/
structure OnePerPackage (ctx : Context) (groups : Keyed SplitGroup) : Prop where
  nodup_keys : (Keyed.keys groups).Nodup
  nodup_names : (groups.map fun e => e.2.name).Nodup
  existsUnique : ∀ p, ctx.HasPackage p → ∃! e, e ∈ groups ∧ e.2.name = ctx.vendorBundleFor p
  of_mem : ∀ e ∈ groups, ∃ p, ctx.HasPackage p ∧ e.2.name = ctx.vendorBundleFor p

/-- **The groups are those of the packages, one for each.** -/
theorem onePerPackage (ctx : Context) : OnePerPackage ctx (ofContext ctx).groups := by
  have hkeys : (Keyed.keys (ofContext ctx).groups).Nodup := Keyed.nodup_keys_ofList _
  have hname : ∀ e ∈ (ofContext ctx).groups, ∀ p, e.2.name = ctx.vendorBundleFor p →
      e = (groupKey p, groupOf ctx p) := by
    intro e he p hep
    obtain ⟨q, -, rfl⟩ := exists_package_of_mem_groups he
    rw [ctx.vendorBundleFor_injective hep]
  refine ⟨hkeys, ?_, fun p hp => ?_, fun e he => ?_⟩
  · refine List.Nodup.map_on (fun e he f hf hef => ?_) (List.Nodup.of_map Prod.fst hkeys)
    obtain ⟨q, -, rfl⟩ := exists_package_of_mem_groups hf
    exact hname e he q hef
  · exact ⟨_, ⟨mem_groups_of_hasPackage hp, rfl⟩, fun e he => hname e he.1 p he.2⟩
  · obtain ⟨p, hp, rfl⟩ := exists_package_of_mem_groups he
    exact ⟨p, hp, rfl⟩

end SplitOptions

/-! ## One bundle for every placed module -/

namespace Placements

/-- **Placements and groups fit together.** Every id has one decision, in the
order in which the ids first come; every module that does not stay is in
one package of the build, and there is one group for each of them. So the
bundler is told to build one vendor bundle for every placed module. -/
theorem existsUnique_group_of_placed (ctx : Context) (g : ModuleGraph) :
    Keyed.keys (ofGraph ctx g) = g.ids.eraseDups ∧
      (∀ id placement, (ofGraph ctx g).placement? id = some placement →
        ListedOnce ctx g id placement) ∧
      SplitOptions.OnePerPackage ctx (SplitOptions.ofContext ctx).groups ∧
      ∀ id placement, (ofGraph ctx g).placement? id = some placement → placement ≠ .unsplit →
        ∃! e, e ∈ (SplitOptions.ofContext ctx).groups ∧
          ∃ p, id ∈ (ofGraph ctx g).modulesIn p ∧ e.2.name = ctx.vendorBundleFor p := by
  have hkeys : Keyed.keys (ofGraph ctx g) = g.ids.eraseDups := by
    rw [ofGraph, Keyed.keys_ofList, Keyed.keys, List.map_map]
    rfl
  have hgroups := SplitOptions.onePerPackage ctx
  refine ⟨hkeys, fun id placement h => listedOnce h, hgroups, fun id placement h hplaced => ?_⟩
  obtain ⟨p, hp, hcount, honly⟩ := (listedOnce h).of_placed hplaced
  have hmem : id ∈ (ofGraph ctx g).modulesIn p := List.count_pos_iff.1 (hcount ▸ Nat.one_pos)
  obtain ⟨e, ⟨he, hname⟩, hunique⟩ := hgroups.existsUnique p hp
  refine ⟨e, ⟨he, p, hmem, hname⟩, ?_⟩
  rintro f ⟨hf, q, hq, hfname⟩
  obtain rfl := honly q hq
  exact hunique f ⟨hf, hfname⟩

end Placements

end SplitBuild
