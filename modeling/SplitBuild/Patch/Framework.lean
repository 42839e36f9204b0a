import SplitBuild.Patch
import SplitBuild.Script.Marker
/-!
# Patches of the framework

Three files of the framework that compiles components expect every
component to be there from the start. The patches make look-ups of
components tolerate missing ones, name the bundles of components by index,
and keep the import of a component only for the load that it asks for.
-/

namespace SplitBuild

namespace Patch

/-! ## Look-ups of components -/

/-- What is returned in place of the references of a component: a proxy
that reports references that are missing. -/
def refsProxy (references : String) : String :=
  "\n      return new Proxy(" ++ references ++ ", \x7b\n"
    ++ "        get(target, prop) \x7b\n"
    ++ "          if (prop === '__original$refs__') \x7b\n"
    ++ "            return target;\n"
    ++ "          \x7d\n"
    ++ "\n"
    ++ "          if (!target[prop]) \x7b\n"
    ++ "            vm?.$onHandleMissingVueRef?.(prop);\n"
    ++ "          \x7d\n"
    ++ "\n"
    ++ "          return target[prop];\n"
    ++ "        \x7d\n"
    ++ "      \x7d);"

/-- Where all components below one are looked up. -/
def componentsPattern : WrittenPattern :=
  .ofText "const components = mpInstance\\.selectAllComponents\\(selector\\)( \\|\\| \\[\\])?;"
    (by decide +kernel)

/-- Where the components of a loop are looked up. -/
def loopPattern : WrittenPattern :=
  .ofText ("const forComponents = mpInstance\\.selectAllComponents"
    ++ "\\('\\.vue-ref-in-for'\\)( \\|\\| \\[\\])?;") (by decide +kernel)

/-- Where the references of a component are returned. -/
def returnPattern : WrittenPattern :=
  .ofText "return (?P<old_return>syncRefs\\(refs, \\$refs\\)|\\$refs)" (by decide +kernel)

/-- The proxy of the references that were returned. -/
def wrapReturn (captures : Captures) : Except Failure String :=
  match captures.get? "old_return" with
  | some references => .ok (refsProxy references)
  | none => .error (.ofMessage "patch Vue.$ref fail, missing old return value")

/-- Look-ups of components give an empty list where there are none, and
references that are missing are reported. -/
def componentLookups : Patch where
  file := ⟨"node_modules/@dcloudio/uni-mp-weixin/dist/index.js"⟩
  replacers :=
    [.matching componentsPattern
      "const components = (mpInstance.selectAllComponents(selector) || []).filter(Boolean);",
     .literal "component.selectAllComponents('.scoped-ref').forEach("
      "(component.selectAllComponents('.scoped-ref') || []).filter(Boolean).forEach(",
     .matching loopPattern
      ("const forComponents = "
        ++ "(mpInstance.selectAllComponents('.vue-ref-in-for') || []).filter(Boolean);"),
     .computed returnPattern wrapReturn]

/-! ## Bundles of components -/

/-- The bundle of a generated component is named by its index, and the name
is passed in a list. -/
def componentBundles : Patch where
  file := ⟨"node_modules/@dcloudio/webpack-uni-mp-loader/lib/plugin/generate-component.js"⟩
  replacers :=
    [.literal "const chunkName = name.replace('.js', '-create-component')"
      "const chunkName = `_mp$c_$\x7bcurComponents.length\x7d`",
     .literal "'$\x7bchunkName\x7d'," "['$\x7bchunkName\x7d'],"]

/-! ## Imports of components -/

/-- The import of a component as it is generated. -/
def importBody : String := "require.ensure([],()=>resolve(require(IMPORT_SOURCE)),CHUNK_NAME)"

/-- The same import without a use of what it loads. -/
def unusedImportBody : String := "require.ensure([],()=>void(require(IMPORT_SOURCE)),CHUNK_NAME)"

/-- The import of a component stands between remove markers: it is gone once
the loads are resolved, and until then it keeps the component's bundle. -/
def componentImports : Patch where
  file := ⟨"node_modules/@dcloudio/webpack-uni-mp-loader/lib/babel/plugin-dynamic-import.js"⟩
  replacers :=
    [.literal ("'var IMPORT_NAME = function()\x7b" ++ importBody ++ "\x7d'")
      ("'var IMPORT_NAME = function()\x7b " ++ Script.removeBegin ++ "; " ++ unusedImportBody
        ++ "; " ++ Script.removeEnd ++ "; \x7d'")]

/-- The patches of the framework, in the order in which they are applied. -/
def framework : List Patch := [componentLookups, componentBundles, componentImports]

end Patch

end SplitBuild
