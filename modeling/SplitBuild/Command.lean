import SplitBuild.BuildGraph
import SplitBuild.LogTarget
import SplitBuild.OutputDirectory
import SplitBuild.Patch.Framework
import SplitBuild.Pipeline
import SplitBuild.Project
/-!
# The command

The command line names the project, the output directory and the build
graph. The command reads the configuration, patches the framework where
that is asked for, tells the bundler where modules go, and runs the stages
over the emitted assets. `Invocation.ofArguments` reads a command line and
`start` answers it by an exit code, over any file store.
-/

namespace SplitBuild

namespace Command

/-! ## Arguments -/

/-- An option that takes a value. -/
inductive Setting where
  | projectRoot
  | dist
  | graph
  | config
  | placements
  deriving DecidableEq, Repr

/-- An option that takes none. -/
inductive Switch where
  | strict
  | patchFramework
  | strictPatch
  deriving DecidableEq, Repr

/-- What a name of an option stands for. -/
inductive Meaning where
  | setting (s : Setting)
  | switch (s : Switch)
  | help
  deriving DecidableEq, Repr

/-- The options by their long names. -/
def longNames : Keyed Meaning :=
  [("project-root", .setting .projectRoot), ("dist", .setting .dist), ("graph", .setting .graph),
   ("config", .setting .config), ("placements", .setting .placements),
   ("strict", .switch .strict), ("patch-framework", .switch .patchFramework),
   ("strict-patch", .switch .strictPatch), ("help", .help)]

/-- The options with a letter. -/
def ofLetter? : Char → Option Meaning
  | 'p' => some (.setting .projectRoot)
  | 'd' => some (.setting .dist)
  | 'g' => some (.setting .graph)
  | 'c' => some (.setting .config)
  | 'h' => some .help
  | _ => none

/-- What a command is asked to do. -/
structure Arguments where
  projectRoot : FilePath
  /-- The output directory of the bundler. -/
  dist : FilePath
  /-- The file with the build graph. -/
  graph : FilePath
  /-- The options file, where it is not the usual one. -/
  config : Option FilePath
  /-- Modules are placed by their path alone. -/
  strict : Bool
  /-- The file to write placements to. -/
  placements : Option FilePath
  patchFramework : Bool
  /-- A patch that does not apply is a failure. -/
  strictPatch : Bool
  deriving DecidableEq, Repr

/-- What a command line asks for. -/
inductive Invocation where
  | build (args : Arguments)
  | help
  /-- The command line is wrong. -/
  | misuse
  deriving DecidableEq, Repr

/-- The options given so far. -/
structure Given where
  settings : List (Setting × String)
  switches : List Switch
  deriving DecidableEq, Repr

namespace Given

/-- No options. -/
def nothing : Given := ⟨[], []⟩

/-- The value of an option. -/
def value? (g : Given) (s : Setting) : Option String := g.settings.lookup s

/-- One more option with a value, which is not empty and not given twice. -/
def set? (g : Given) (s : Setting) (v : String) : Option Given :=
  if v.isEmpty || (g.value? s).isSome then none
  else some { g with settings := (s, v) :: g.settings }

/-- One more option without a value, not given twice. -/
def switch? (g : Given) (s : Switch) : Option Given :=
  if s ∈ g.switches then none else some { g with switches := s :: g.switches }

/-- What the options ask for, once all are given. -/
def invocation (g : Given) : Invocation :=
  match g.value? .dist, g.value? .graph with
  | some dist, some graph =>
    .build {
      projectRoot := ⟨(g.value? .projectRoot).getD "."⟩
      dist := ⟨dist⟩
      graph := ⟨graph⟩
      config := (g.value? .config).map .mk
      strict := .strict ∈ g.switches
      placements := (g.value? .placements).map .mk
      patchFramework := .patchFramework ∈ g.switches
      strictPatch := .strictPatch ∈ g.switches }
  | _, _ => .misuse

end Given

/-- An argument of the command line, taken apart. -/
inductive Argument where
  /-- An option, with the value that is attached to it. -/
  | option (meaning : Meaning) (value : Option String)
  /-- The end of the options. -/
  | separator
  | other
  deriving DecidableEq, Repr

namespace Argument

/-- An argument with a long name. -/
def ofLong (body : List Char) : Argument :=
  let (name, value) : List Char × Option String :=
    match Text.cut? ['='] body with
    | some (name, value) => (name, some (String.ofList value))
    | none => (body, none)
  match longNames.get? (String.ofList name) with
  | some meaning => .option meaning value
  | none => .other

/-- An argument with a letter. -/
def ofShort (letter : Char) (attached : List Char) : Argument :=
  match ofLetter? letter, attached with
  | none, _ => .other
  | some meaning, [] => .option meaning none
  | some .help, _ => .option .help none
  | some meaning, '=' :: value => .option meaning (some (String.ofList value))
  | some meaning, value => .option meaning (some (String.ofList value))

/-- An argument as it is written. -/
def ofText (text : String) : Argument :=
  match text.toList with
  | ['-', '-'] => .separator
  | '-' :: '-' :: body => ofLong body
  | '-' :: letter :: attached => ofShort letter attached
  | _ => .other

/-- An argument may be the value of the option before it. -/
def isValue (text : String) : Bool := text = "-" || text.toList.head? ≠ some '-'

end Argument

/-- The invocation of the arguments that remain. Help ends the reading; a
wrong argument does so too, and the first of the two wins. -/
def read (g : Given) : List String → Invocation
  | [] => g.invocation
  | text :: rest =>
    match Argument.ofText text, rest with
    | .separator, [] => g.invocation
    | .separator, _ :: _ => .misuse
    | .other, _ => .misuse
    | .option .help none, _ => .help
    | .option .help (some _), _ => .misuse
    | .option (.switch s) none, rest =>
      match g.switch? s with
      | some g => read g rest
      | none => .misuse
    | .option (.switch _) (some _), _ => .misuse
    | .option (.setting s) (some v), rest =>
      match g.set? s v with
      | some g => read g rest
      | none => .misuse
    | .option (.setting _) none, [] => .misuse
    | .option (.setting s) none, v :: rest =>
      if Argument.isValue v then
        match g.set? s v with
        | some g => read g rest
        | none => .misuse
      else .misuse

/-- The invocation of a command line. -/
def Invocation.ofArguments (args : List String) : Invocation := read .nothing args

/-! ## Building -/

variable {m : Type → Type} [Monad m] [FileStore m]

/-- Applies the patches of the framework, where that is asked for. -/
def patchFramework (args : Arguments) : ExceptT Failure m Unit :=
  if args.patchFramework then
    Patch.framework.forM fun patch => do
      let _ ← patch.apply args.projectRoot args.strictPatch
  else return ()

/-- Writes the placements, where that is asked for. -/
def writePlacements (args : Arguments) (ctx : Context) (g : ModuleGraph) :
    ExceptT Failure m Unit := do
  if let some path := args.placements then
    let text := (Pipeline.placementReport ctx g).pretty
    FileStore.orStop (FileStore.write path text.toUTF8) Failure.ofFault

/-- Runs a build and returns its report. What the stages changed is written
also where one of them ends the run. -/
def build (args : Arguments) : ExceptT Failure m BuildReport := do
  let strict := if args.strict then some true else none
  let configuration ← (Project.ofRoot args.projectRoot).load args.config strict
  patchFramework args
  let graph ← BuildGraph.load args.graph
  writePlacements args configuration.context graph.modules
  let before ← OutputDirectory.load args.dist
  let (report, after) :=
    Pipeline.default.run configuration.context ⟨graph.bundles, configuration.fragments⟩ before
  let _ ← OutputDirectory.writeChanged args.dist before after
  return report

/-- The report of a build, which tells a failure too. -/
def report (args : Arguments) : m BuildReport := do
  match ← (build args).run with
  | .ok report => return report
  | .error f => return .ofFailure f

/-! ## Starting -/

/-- What a started command comes to. -/
inductive Outcome where
  | built (report : BuildReport)
  | help
  | misuse
  /-- The log is set to a target that there is not. -/
  | badLogSetting (item : String)
  deriving DecidableEq, Repr

/-- The exit code of an outcome. -/
def Outcome.exitCode : Outcome → Nat
  | .built report => report.exitCode
  | .help => 0
  | .misuse => 2
  | .badLogSetting _ => 101

/-- Starts the command with a setting of the log and a command line. -/
def start (logSetting : Option String) (args : List String) : m Outcome := do
  match LogTarget.ofSetting logSetting with
  | .error item => return .badLogSetting item
  | .ok _ =>
    match Invocation.ofArguments args with
    | .help => return .help
    | .misuse => return .misuse
    | .build args => return .built (← report args)

end Command

end SplitBuild
