import InfraGraph.Graph.Lowering
import InfraGraph.Graph.Verification

/-!
# Building graphs

Building a graph is lowering it and then, unless that is turned off, checking it. A graph that fails
its check is no user's fault, so it is an error and not a diagnostic. Units that use a syntax id
twice are not checked, since in them a node is not known by its id.
-/

namespace InfraGraph

/-- When a graph is checked. -/
inductive VerifyMode where
  /-- In checked builds of the program, of which this is one. -/
  | debug
  | always
  | never
deriving DecidableEq, Repr

namespace VerifyMode

/-- The modes by name. -/
def table : List (String × VerifyMode) :=
  [("debug", .debug), ("always", .always), ("never", .never)]

/-- The name of a mode. -/
def name : VerifyMode → String
  | .debug => "debug"
  | .always => "always"
  | .never => "never"

/-- Whether a graph is checked. -/
def enabled : VerifyMode → Bool
  | .never => false
  | _ => true

end VerifyMode

/-- How graphs are built. -/
structure BuildOptions where
  verify : VerifyMode
deriving DecidableEq, Repr

namespace BuildOptions

/-- Graphs are checked in checked builds. -/
def default : BuildOptions :=
  ⟨.debug⟩

/-- Graphs are checked. -/
def checked : BuildOptions :=
  ⟨.always⟩

/-- Graphs are not checked. -/
def unchecked : BuildOptions :=
  ⟨.never⟩

/-- The options as JSON. -/
def toJson (o : BuildOptions) : Json :=
  .obj [("verify", .str o.verify.name)]

/-- The options from JSON; what is left out is as by default. -/
def read : Nat → Json → Json.Decoded BuildOptions :=
  Json.readRecord .streamed fun room =>
    BuildOptions.mk <$>
      Json.defaulted "verify" default.verify (Json.readName .streamed VerifyMode.table room)

end BuildOptions

/-- The wording of a failed build. -/
def Violation.buildMessage (v : Violation) : String :=
  "operation graph invariant violated: " ++ v.message

/-- Builds the graph of a unit. -/
def BoundProgram.build (p : BoundProgram) (m : SymbolModel) (options : BuildOptions) :
    Except Violation OperationGraph :=
  let g := p.lower m
  if options.verify.enabled && p.reusedIds.isEmpty then
    match g.verify m with
    | some v => .error v
    | none => .ok g
  else .ok g

end InfraGraph
