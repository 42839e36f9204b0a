import SplitBuild.FileStore
import SplitBuild.Pattern.Reader
import SplitBuild.Pattern.Search
import SplitBuild.Text.Search
/-!
# Patches

A replacer changes the first place of a text where what it looks for
occurs. A patch runs replacers over a file, one after the other on the
outcome of the one before. A replacer that finds nothing is passed over, or
stops the run where the patch is applied strictly. A file is written only
where its text changes.

What finds an expression in a text is left open: replacers ask for the
first match and for nothing else, so that the same match says whether an
expression occurs and what is replaced. The search for written patterns is
one such engine.
-/

namespace SplitBuild

/-! ## What is looked for -/

/-- An expression that an engine looks for: the text that messages show, and
the match that the engine finds first in a text, if there is one. -/
structure Expression where
  text : String
  search? : List Char → Option Found

/-- The expression of a written pattern. -/
def WrittenPattern.expression (p : WrittenPattern) : Expression := ⟨p.text, p.pattern.search?⟩

/-- A text with the first match of an expression replaced by what `compute`
makes of it. -/
def Expression.replaceFirst (e : Expression) (compute : Captures → Except Failure String)
    (text : String) : Except Failure String :=
  match e.search? text.toList with
  | some found => do
    let new ← compute found.captures
    return String.ofList (found.before ++ new.toList ++ found.after)
  | none => .ok text

/-- What a replacer looks for. -/
inductive Sought where
  | literal (text : String)
  | expression (e : Expression)

namespace Sought

/-- How messages show what is looked for. -/
def display : Sought → String
  | literal text => "string: \"" ++ text ++ "\""
  | expression e => "regex: \"" ++ e.text ++ "\""

/-- It stands somewhere in a text. -/
def occursIn (sought : Sought) (text : String) : Bool :=
  match sought with
  | literal part => Text.contains part.toList text.toList
  | expression e => (e.search? text.toList).isSome

end Sought

/-! ## Replacers -/

/-- What stands in place of what was found. -/
inductive Replacement where
  | text (new : String)
  /-- It is computed from the stretches that a match keeps. -/
  | computed (compute : Captures → Except Failure String)

/-- A change to the first place where something occurs. -/
structure Replacer where
  sought : Sought
  replacement : Replacement

namespace Replacer

/-- A text gives way to another. -/
def literal (old new : String) : Replacer := ⟨.literal old, .text new⟩

/-- A match gives way to a text. -/
def matching (pattern : WrittenPattern) (new : String) : Replacer :=
  ⟨.expression pattern.expression, .text new⟩

/-- A match gives way to what is computed from the stretches it keeps. -/
def computed (pattern : WrittenPattern) (compute : Captures → Except Failure String) : Replacer :=
  ⟨.expression pattern.expression, .computed compute⟩

/-- What the replacer looks for occurs in a text. -/
def occursIn (r : Replacer) (text : String) : Bool := r.sought.occursIn text

/-- A text with the first place changed. A literal keeps no stretches that
something could be computed from. -/
def apply (r : Replacer) (text : String) : Except Failure String :=
  match r.sought, r.replacement with
  | .literal old, .text new =>
    .ok (String.ofList (Text.replaceFirst old.toList new.toList text.toList))
  | .literal old, .computed _ =>
    .error (.ofMessage ("computed replacements need a regex pattern, got \"" ++ old ++ "\""))
  | .expression e, .text new => e.replaceFirst (fun _ => .ok new) text
  | .expression e, .computed compute => e.replaceFirst compute text

/-! ## Several in turn -/

/-- Why a run of replacers stops. -/
inductive Stop where
  /-- What a replacer looks for does not occur. -/
  | missing (r : Replacer)
  /-- A replacement fails. -/
  | failed (f : Failure)

/-- The failure that tells why a run stops. -/
def Stop.failure : Stop → Failure
  | missing r => .ofMessage ("Can't find replacer pattern " ++ r.sought.display)
  | failed f => f

/-- A text after several replacers in turn, or why they stop. -/
def run (strict : Bool) : List Replacer → String → Except Stop String
  | [], text => .ok text
  | r :: rs, text =>
    if r.occursIn text then do run strict rs (← (r.apply text).mapError .failed)
    else if strict then .error (.missing r)
    else run strict rs text

/-- A text after several replacers in turn. -/
def applyAll (strict : Bool) (rs : List Replacer) (text : String) : Except Failure String :=
  (run strict rs text).mapError Stop.failure

end Replacer

/-! ## Files -/

/-- Replacers for a file below the root of a project. -/
structure Patch where
  file : FilePath
  replacers : List Replacer

namespace Patch

variable {m : Type → Type} [Monad m] [FileStore m]

/-- Applies a patch to its file and tells whether the file changed. -/
def apply (patch : Patch) (projectRoot : FilePath) (strict : Bool) : ExceptT Failure m Bool := do
  let path := projectRoot.join patch.file
  let before ← FileStore.orStop (FileStore.readText path)
    (Failure.whileTrying ("Failed to read " ++ path.text))
  match Replacer.applyAll strict patch.replacers before with
  | .error f => throw (f.within ("Failed to patch " ++ path.text))
  | .ok after =>
    if after = before then return false
    else
      FileStore.orStop (FileStore.write path after.toUTF8) Failure.ofFault
      return true

end Patch

end SplitBuild
