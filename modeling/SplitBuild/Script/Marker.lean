import SplitBuild.Path
import SplitBuild.Text.Blank
import SplitBuild.Text.Edit
/-!
# Markers in scripts

While bundles are built, a load on demand is written as a call of a marker
function, and code that no host runs stands between a begin marker and an
end marker. `LoadCall.read?` reads such a call and `Region.read?` such a
region; `resolve` makes host loads of the calls, relative to the asset
they stand in, and empties the regions.
-/

namespace SplitBuild

namespace Script

/-! ## The markers -/

/-- What every marker starts with. -/
def markerStart : String := "__subpack_"

/-- The function that a load on demand calls. -/
def loadMarker : String := "__subpack_require_async__"

/-- The begin of a region that is removed. -/
def removeBegin : String := "__subpack_remove_begin__"

/-- The end of a region that is removed. -/
def removeEnd : String := "__subpack_remove_end__"

/-- The function of the host that loads a bundle on demand. -/
def hostLoad : String := "require.async"

/-- A source holds a marker. -/
def hasMarker (source : String) : Bool := Text.contains markerStart.toList source.toList

/-! ## Load calls -/

/-- A load on demand. -/
structure LoadCall where
  /-- The comment in front of the bundle, with what delimits it and the
  blank behind it; empty where there is none. -/
  comment : List Char
  /-- The bundle to load. -/
  id : List Char
  deriving DecidableEq, Repr

namespace LoadCall

/-- At least one character up to the first `close` behind it, and what
follows that, all on one line. -/
def lineUntil? (close : List Char) : List Char → Option (List Char × List Char)
  | [] => none
  | c :: cs =>
    if c = '\n' then none
    else match Text.after? close cs with
      | some rest => some ([c], rest)
      | none => (lineUntil? close cs).map fun p => (c :: p.1, p.2)

/-- A quoted bundle and the parenthesis that closes the call. -/
def quotedId? : List Char → Option (List Char × List Char)
  | '"' :: cs => lineUntil? ['"', ')'] cs
  | _ => none

/-- One blank at the front of a text, and what follows it. -/
def oneBlank : List Char → List Char × List Char
  | [] => ([], [])
  | c :: cs => if Text.isBlank c then ([c], cs) else ([], c :: cs)

/-- The end of a comment with a blank, and the bundle. -/
def commentRest? (s : List Char) : Option (LoadCall × List Char) := do
  let rest ← Text.after? ['*', '/'] s
  let (blank, rest) := oneBlank rest
  let (id, rest) ← quotedId? rest
  return (⟨['*', '/'] ++ blank, id⟩, rest)

/-- The inside of a comment, of at least one character, up to the first
end that a bundle follows. -/
def commented? : List Char → Option (LoadCall × List Char)
  | [] => none
  | c :: cs =>
    if c = '\n' then none
    else match commentRest? cs with
      | some (call, rest) => some ({ call with comment := c :: call.comment }, rest)
      | none => (commented? cs).map fun p => ({ p.1 with comment := c :: p.1.comment }, p.2)

/-- What the marker function is called with, up to the end of the call. -/
def arguments? (s : List Char) : Option (LoadCall × List Char) :=
  match Text.after? ['/', '*'] s with
  | some inside =>
    (commented? inside).map fun p => ({ p.1 with comment := ['/', '*'] ++ p.1.comment }, p.2)
  | none => (quotedId? s).map fun p => (⟨[], p.1⟩, p.2)

/-- A call at the front of a text, and what follows it. -/
def read? (s : List Char) : Option (LoadCall × List Char) :=
  (Text.after? (loadMarker.toList ++ ['(']) s).bind arguments?

/-- The call of the host that loads the bundle from the directory of an
asset. -/
def resolved (asset extension : String) (call : LoadCall) : List Char :=
  hostLoad.toList ++ ['('] ++ call.comment ++ ['"']
    ++ (Path.relative asset (String.ofList call.id) extension).toList ++ ['"', ')']

/-- The edit that resolves a call. -/
def resolution (asset extension : String) : Text.Edit := fun s =>
  (read? s).map fun p => (p.1.resolved asset extension, p.2)

end LoadCall

/-! ## Removed regions -/

namespace Region

/-- What may follow the end marker, up to the closing brace. -/
def close? (s : List Char) : Option (List Char) :=
  let unterminated := (Text.after? [';'] s).getD s
  Text.after? ['}'] (Text.trimStart unterminated)

/-- What follows the first end marker that closes the region. -/
def rest? : List Char → Option (List Char)
  | [] => none
  | c :: cs =>
    match (Text.after? removeEnd.toList (c :: cs)).bind close? with
    | some rest => some rest
    | none => rest? cs

/-- What follows a region at the front of a text. -/
def read? (s : List Char) : Option (List Char) := do
  let body ← Text.after? ['{'] s
  let inside ← Text.after? removeBegin.toList (Text.trimStart body)
  rest? inside

/-- The edit that empties a region. -/
def removal : Text.Edit := fun s => (read? s).map fun rest => (['{', '}'], rest)

end Region

/-! ## Sources -/

/-- The source of an asset with its loads resolved and its regions empty. -/
def resolve (asset extension source : String) : String :=
  String.ofList <| Text.editAll Region.removal <|
    Text.editAll (LoadCall.resolution asset extension) source.toList

end Script

end SplitBuild
