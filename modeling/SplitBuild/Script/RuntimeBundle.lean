import SplitBuild.AssetTable
import SplitBuild.Context
import SplitBuild.Diagnostic
import SplitBuild.Path
import SplitBuild.Text.Search
/-!
# The runtime bundle

The runtime bundle loads the others. The host has no document, so the
snippet that loads a bundle calls a function of the host, code that puts
scripts into a document is dropped, and a runtime that loads stylesheets
through a document is reported.
-/

namespace SplitBuild

namespace RuntimeBundle

/-! ## The snippet -/

/-- A line below some tabs. -/
def indented (depth : Nat) (line : String) : String :=
  String.ofList (List.replicate depth '\t') ++ line

/-- What the snippet does once the host answers. -/
def completionLines : List String :=
  ["// create error before stack unwound to get useful stacktrace later",
   "var error = new Error();",
   "var onScriptComplete = function (event) \x7b",
   indented 1 "var chunk = installedChunks[chunkId];",
   indented 1 "if(chunk !== 0) \x7b",
   indented 2 "if(chunk) \x7b",
   indented 3 "var errorType = (event && event.type) || 'missing';",
   indented 3 "var errorMsg = (event && event.errMsg) || 'missing error message';",
   indented 3 "error.message = 'Loading chunk ' + chunkId + ' failed.\\n' + errorMsg;",
   indented 3 "error.name = 'ChunkLoadError';",
   indented 3 "error.type = errorType;",
   indented 3 "chunk[1](error);",
   indented 2 "\x7d",
   indented 2 "installedChunks[chunkId] = undefined;",
   indented 1 "\x7d",
   "\x7d;"]

/-- How the snippet asks the host for a bundle, whose file is found from
the directory of the runtime bundle. -/
def requestLines (ctx : Context) : List String :=
  ["require('" ++ Path.upward ctx.runtimeBundle ++ "' + chunkId + '" ++ ctx.scriptExtension
     ++ "', function () \x7b",
   indented 1 "onScriptComplete(\x7btype: 'callback', errMsg: 'require async OK'\x7d);",
   "\x7d, function (err) \x7b",
   indented 1 "onScriptComplete(\x7btype: 'error', errMsg: err && err.errMsg\x7d);",
   "\x7d);"]

/-- The snippet that loads the bundle `chunkId`. -/
def loadSnippet (ctx : Context) : String :=
  "\n".intercalate (completionLines ++ requestLines ctx)

/-! ## Documents -/

/-- The statement that puts a script into a document. -/
def scriptInjection : String := "document.head.appendChild(script);"

/-- The function that looks for stylesheets in a document. -/
def stylesheetLookup : String := "document.getElementsByTagName"

/-- A source without its first statement that puts a script into a
document. -/
def dropInjection (source : String) : String :=
  String.ofList (Text.replaceFirst scriptInjection.toList [] source.toList)

/-- The asset that is the runtime bundle. -/
def assetName (ctx : Context) : String := ctx.runtimeBundle ++ ctx.scriptExtension

/-- The report of a runtime that loads stylesheets through a document. -/
def stylesheetLoading (name : String) : Diagnostic where
  kind := .stylesheetRuntime
  message := "\"" ++ name ++ "\" loads stylesheets through the DOM (" ++ stylesheetLookup ++ ")"
  origin := some "check-stylesheet-runtime"
  subjects := [name]
  hints := []

/-- The reports on the runtime bundle of the assets. -/
def checkStylesheets (ctx : Context) (assets : AssetTable) : List Diagnostic :=
  match assets.source? (assetName ctx) with
  | some source =>
    if Text.contains stylesheetLookup.toList source.toList then [stylesheetLoading (assetName ctx)]
    else []
  | none => []

end RuntimeBundle

end SplitBuild
