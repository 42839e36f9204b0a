import SplitBuild.Placement.Walk
/-!
# Placement

Placement decides for every module whether it is split into the vendor
bundle of the main package, into that of a subpackage, or stays in the
unit that emits it, and tells why. The strict policy looks at the path of
a module alone. The compat policy puts a module into a subpackage only
where that subpackage is its sole consumer and no page or component
outside reaches it synchronously.
-/

namespace SplitBuild

open Json

/-- Where a module goes. -/
inductive Placement where
  /-- The vendor bundle of the main package. -/
  | main
  /-- The vendor bundle of a subpackage. -/
  | subpackage (root : String)
  /-- The unit that emits the module. -/
  | unsplit
  deriving DecidableEq, Repr

/-- Why a module goes there. -/
inductive Reason where
  | notClassified
  | thirdPartyBundle
  | outsideSubpackageRoots
  | underSubpackageRoot
  | noSubpackageConsumer
  | sharedBySubpackages (roots : List String)
  | usedByMain (bundle : String)
  | reachedFromComponent (component : String)
  | singleSubpackage
  deriving DecidableEq, Repr

/-- Where a module goes, and why. -/
structure Decision where
  placement : Placement
  reason : Reason
  deriving DecidableEq, Repr

namespace Placement

/-- The package a placement belongs to; none for a module that stays. -/
def package? : Placement → Option Package
  | main => some .main
  | subpackage root => some (.subpackage root)
  | unsplit => none

end Placement

/-! ## Consumers -/

/-- The name of a bundle that keeps its own chunking, being compiled from
third party packages, starts with this. -/
def thirdPartyStart : String := "node-modules"

/-- A bundle is not compiled from third party packages alone. -/
def isSplittableBundle (name : String) : Bool :=
  (Text.after? thirdPartyStart.toList name.toList).isNone

namespace Module

/-- A module is held by third party bundles and by no other. -/
def isThirdPartyOnly (m : Module) : Bool :=
  !m.consumers.isEmpty && m.consumers.all fun c => c.name.any fun n => !isSplittableBundle n

/-- The name of a consumer without one: the source file of the module
where that is its only consumer, and the empty name otherwise. -/
def unnamedConsumer (m : Module) : String :=
  match m.consumers with
  | [⟨none⟩] => m.resource.getD ""
  | _ => ""

/-- The names of the bundles that use a module, third party ones left
out. -/
def consumerNames (m : Module) : List String :=
  (m.consumers.map fun c => c.name.getD m.unnamedConsumer).filter isSplittableBundle

end Module

/-! ## Policies -/

namespace Placement

/-- The strict policy, for a script: its path decides. -/
def placeStrict (ctx : Context) (m : Module) : Decision :=
  match m.resource.bind ctx.subpackages.matching with
  | some s => ⟨.subpackage s.root, .underSubpackageRoot⟩
  | none => ⟨.main, .outsideSubpackageRoots⟩

/-- The roots of the subpackages that use a module, in order. Independent
subpackages do not count. -/
def consumerRoots (ctx : Context) (m : Module) : List String :=
  sortedNames <| m.consumerNames.filterMap fun n => (ctx.subpackages.matchingNormal n).map (·.root)

/-- The compat policy, for a script whose consumers lie under one root. -/
def placeUnder (ctx : Context) (g : ModuleGraph) (m : Module) (root : String) : Decision :=
  match m.consumerNames.find? fun n => (ctx.subpackages.matching n).isNone with
  | some bundle => ⟨.main, .usedByMain bundle⟩
  | none =>
    match Walk.outsider? ctx g m root with
    | some component => ⟨.main, .reachedFromComponent component⟩
    | none => ⟨.subpackage root, .singleSubpackage⟩

/-- The compat policy, for a script. -/
def placeCompat (ctx : Context) (g : ModuleGraph) (m : Module) : Decision :=
  match consumerRoots ctx m with
  | [] => ⟨.main, .noSubpackageConsumer⟩
  | [root] => placeUnder ctx g m root
  | roots => ⟨.main, .sharedBySubpackages roots⟩

/-- Where a module of a graph goes, and why. Only scripts are placed, and
not those that third party bundles hold. -/
def decide (ctx : Context) (g : ModuleGraph) (m : Module) : Decision :=
  if m.isThirdPartyOnly then ⟨.unsplit, .thirdPartyBundle⟩
  else if m.kind ≠ .script then ⟨.unsplit, .notClassified⟩
  else match ctx.policy with
    | .strict => placeStrict ctx m
    | .compat => placeCompat ctx g m

end Placement

/-! ## The decisions for a graph -/

/-- The decisions for the ids of a graph, in the order in which the ids
first come; the last module with an id decides. -/
abbrev Placements := Keyed Decision

namespace Placements

/-- The decisions for every module of a graph. -/
def ofGraph (ctx : Context) (g : ModuleGraph) : Placements :=
  Keyed.ofList (g.modules.map fun m => (m.id, Placement.decide ctx g m))

/-- The placement of an id. -/
def placement? (ps : Placements) (id : String) : Option Placement :=
  (Keyed.get? ps id).map (·.placement)

/-- The ids that go into the vendor bundle of a package, in order. -/
def modulesIn (ps : Placements) (package : Package) : List String :=
  (ps.filter fun e => e.2.placement.package? = some package).map (·.1)

end Placements

/-! ## In JSON -/

namespace Placement

/-- A placement in JSON. -/
def value : Placement → Value
  | main => .object [("type", .string "main")]
  | subpackage root => .object [("type", .string "subpackage"), ("root", .string root)]
  | unsplit => .object [("type", .string "unsplit")]

end Placement

namespace Reason

/-- A reason in JSON. -/
def value : Reason → Value
  | notClassified => .object [("reason", .string "notClassified")]
  | thirdPartyBundle => .object [("reason", .string "thirdPartyBundle")]
  | outsideSubpackageRoots => .object [("reason", .string "outsideSubpackageRoots")]
  | underSubpackageRoot => .object [("reason", .string "underSubpackageRoot")]
  | noSubpackageConsumer => .object [("reason", .string "noSubpackageConsumer")]
  | sharedBySubpackages roots =>
    .object [("reason", .string "sharedBySubpackages"), ("roots", .ofStrings roots)]
  | usedByMain bundle => .object [("reason", .string "usedByMain"), ("bundle", .string bundle)]
  | reachedFromComponent component =>
    .object [("reason", .string "reachedFromComponent"), ("component", .string component)]
  | singleSubpackage => .object [("reason", .string "singleSubpackage")]

end Reason

namespace Decision

/-- A decision in JSON. -/
def value (d : Decision) : Value :=
  .object [("placement", d.placement.value), ("reason", d.reason.value)]

end Decision

namespace Placements

/-- The decisions for a graph in JSON. -/
def value (ps : Placements) : Value := .object (ps.map fun e => (e.1, e.2.value))

end Placements

end SplitBuild
