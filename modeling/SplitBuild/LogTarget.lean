import SplitBuild.Json.Record
import SplitBuild.Text.Blank
import SplitBuild.Text.Search
/-!
# Log targets

The log goes to standard output and, where that is asked for, to files
too. The targets are set by a variable of the environment.
-/

namespace SplitBuild

open Json

/-- A place the log goes to. -/
inductive LogTarget where
  | stdout
  | file
  deriving DecidableEq, Repr

namespace LogTarget

/-- The name of a target. -/
def name : LogTarget → String
  | stdout => "stdout"
  | file => "file"

/-- The targets under their names. -/
def named : Keyed LogTarget := [("stdout", stdout), ("file", file)]

/-- Every target is found under its name. -/
theorem get?_named (t : LogTarget) : named.get? t.name = some t := by cases t <;> rfl

/-- A target in JSON. -/
def value (t : LogTarget) : Value := .object [("mode", .string t.name)]

/-- The name of a target, read from JSON. -/
def mode? (doc : Document) : Option LogTarget := doc.string?.bind named.get?

/-- A target read from JSON. Further entries must be readable. -/
def ofDocument? : Document → Option LogTarget
  | .object entries => do
    let fields ← Record.ofEntries? ["mode"] entries
    let _ ← Record.extras? ["mode"] entries
    fields.required "mode" mode?
  | .array [doc] => mode? doc
  | _ => none

/-! ## The setting -/

/-- The variable that sets the targets. -/
def settingName : String := "SUBPACK_TRACING_MODE"

/-- The items of a setting, without the blanks around them. -/
def settingItems (setting : String) : List String :=
  (Text.pieces ',' setting.toList).map fun item => String.ofList (Text.trim item)

/-- The targets with one more, unless it is there. -/
def add (targets : List LogTarget) (t : LogTarget) : List LogTarget :=
  if t ∈ targets then targets else targets ++ [t]

/-- The targets that items name, or the first item that names none. -/
def ofItems : List LogTarget → List String → Except String (List LogTarget)
  | targets, [] => .ok targets
  | targets, item :: items =>
    match named.get? item with
    | some t => ofItems (add targets t) items
    | none => .error item

/-- The targets of a setting, each once; none where nothing is set. -/
def ofSetting (setting : Option String) : Except String (List LogTarget) :=
  match setting with
  | none => .ok []
  | some s => if (Text.trim s.toList).isEmpty then .ok [] else ofItems [] (settingItems s)

/-- The message on an item that names no target. -/
def invalidItem (item : String) : String :=
  "Invalid value for " ++ settingName ++ ": Invalid value: " ++ item

end LogTarget

end SplitBuild
