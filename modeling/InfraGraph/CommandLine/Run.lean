import InfraGraph.CommandLine.Config
import InfraGraph.CommandLine.Folder
import InfraGraph.CommandLine.Request
import InfraGraph.Diagnostic.Render
import InfraGraph.Graph.Outline
import InfraGraph.Graph.Stored
import InfraGraph.Json.Printer
import InfraGraph.Symbol.Binding
import InfraGraph.Tree.Stored

/-!
# Runs of the program

A run reads its configuration and then the unit, and does what its command says. What it has to say
about the unit goes to the error output, in colours. It ends with status 0, with 1 if the unit has
errors, and with 2 if it could not do its work. A graph is written out before the source text for
the reports is read, so it is there even if that text is not.

## Main definitions

* `RunError` and `RunError.message` — why a run could not do its work.
* `Command.run` — a command under a configuration.
* `Request.answer` — everything a run writes, and how it ends.
-/

namespace InfraGraph

/-- What a run writes to its two outputs, and the status it ends with. -/
structure Outcome where
  status : Nat
  output : String
  errors : String
deriving DecidableEq, Repr

/-- Why a run could not do its work. -/
inductive RunError where
  | unreadable (path : String) (failure : ReadFailure)
  | badTree (path : String) (error : DecodeError)
  | badConfig (path : String) (error : DecodeError)
  | unknownSymbol (name : String)
  /-- A built graph failed its check. -/
  | violation (v : Violation)
deriving DecidableEq, Repr

namespace RunError

/-- The wording of an error. -/
def message : RunError → String
  | .unreadable path failure => "cannot read " ++ path ++ ": " ++ failure.message
  | .badTree path error => path ++ " is not a valid bound tree: " ++ error.message
  | .badConfig path error => "invalid configuration in " ++ path ++ ": " ++ error.message
  | .unknownSymbol name => "no symbol named `" ++ name ++ "`"
  | .violation v => v.buildMessage

/-- The status a run ends with. -/
def status : RunError → Nat
  | .violation _ => 101
  | _ => 2

end RunError

/-- A run that stops with an error after it has written something. -/
structure Failure where
  output : String
  error : RunError

/-- The end of a failed run. -/
def Failure.outcome (f : Failure) : Outcome :=
  ⟨f.error.status, f.output, "error: " ++ f.error.message ++ "\n"⟩

section

variable (files : FileReader)

/-- The text of a file. -/
def readFile (path : String) : Except RunError String :=
  (files path).mapError (.unreadable path)

/-- The configuration of a run. -/
def loadConfig : Option String → Except RunError Config
  | none => .ok .default
  | some path => do
    (Json.readJsonText Config.read (← readFile files path)).mapError (.badConfig path)

/-- The unit of a run. -/
def loadTree (path : String) : Except RunError BoundProgram := do
  (Json.readJsonText BoundProgram.read (← readFile files path)).mapError (.badTree path)

/-- The source text reports are shown with. -/
def loadSource : Option String → Except RunError SourceCache
  | none => .ok .empty
  | some path => do return SourceCache.empty.add path (← readFile files path)

/-- A unit read and built. -/
structure LoadedUnit where
  binding : Binding
  graph : OperationGraph

/-- What was reported about a unit when it was bound and lowered. -/
def LoadedUnit.diagnostics (u : LoadedUnit) : Diagnostics :=
  u.binding.diagnostics ++ u.graph.diagnostics

/-- Reads and builds the unit of a run. -/
def loadUnit (config : Config) (path : String) : Except RunError LoadedUnit := do
  let program ← loadTree files path
  let binding := program.bind
  let graph ← (program.build binding.model config.build).mapError .violation
  return ⟨binding, graph⟩

/-- The graph of a unit in a format. -/
def LoadedUnit.write (u : LoadedUnit) : Format → String
  | .text => u.graph.outline
  | .json =>
    Json.pretty
        (.obj [("declarations", u.graph.declarationsJson), ("diagnostics", u.diagnostics.toJson)])
      ++ "\n"

/-- Reports in colours, and how many of them are errors. -/
def coloredReports (cache : SourceCache) (ds : Diagnostics) : String :=
  String.join (ds.map fun d => d.render cache true ++ "\n")
    ++ if ds.hasErrors then toString ds.errorCount ++ " error(s) found\n" else ""

/-- Ends a run that has written something with reports. -/
def finish (source : Option String) (output : String) (ds : Diagnostics) :
    Except Failure Outcome := do
  let cache ← (loadSource files source).mapError (⟨output, ·⟩)
  return ⟨if ds.hasErrors then 1 else 0, output, coloredReports cache ds⟩

/-- Does what a command says. -/
def Command.run (config : Config) (command : Command) : Except Failure Outcome :=
  let load path := (loadUnit files config path).mapError (Failure.mk "")
  match command with
  | .lower tree format source => do
    let u ← load tree
    finish files source (u.write format) u.diagnostics
  | .references tree name => do
    let u ← load tree
    match u.binding.declarationNamed? name with
    | none => throw ⟨"", .unknownSymbol name⟩
    | some symbol =>
      let lines := (u.graph.referencesTo symbol.id).map fun r => r.display ++ "\n"
      return ⟨0, String.join lines, ""⟩
  | .lint tree source => do
    let u ← load tree
    finish files source "" (u.diagnostics ++ u.graph.lint config.lint)

end

/-- How the program is used. -/
def usage : String :=
  String.join <| List.map (· ++ "\n")
    ["Usage: keel [OPTIONS] <COMMAND>",
      "",
      "Commands:",
      "  lower TREE [-f text|json] [--source FILE]  Lowers a bound tree to its operation graph",
      "  references TREE NAME                       Lists every reference to a declaration",
      "  lint TREE [--source FILE]                  Runs the lint rules",
      "",
      "Options:",
      "  -v, --verbose  More logging",
      "  --config FILE  JSON configuration file",
      "  -h, --help     Print help",
      "  -V, --version  Print version"]

/-- The name and version of the program. -/
def versionLine : String :=
  "keel 0.1.0\n"

/-- Everything a run writes, and how it ends. -/
def Request.answer (files : FileReader) : Request → Outcome
  | .help => ⟨0, usage, ""⟩
  | .version => ⟨0, versionLine, ""⟩
  | .refused => ⟨2, "", usage⟩
  | .run config command =>
    let result : Except Failure Outcome := do
      let config ← (loadConfig files config).mapError (Failure.mk "")
      command.run files config
    match result with
    | .ok outcome => outcome
    | .error failure => failure.outcome

end InfraGraph
