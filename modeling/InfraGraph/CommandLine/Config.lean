import InfraGraph.Graph.Build
import InfraGraph.Graph.Usage

/-!
# Configuration

A run may be given a file of options for building graphs and for the rules. Whatever the file leaves
out is as by default.
-/

namespace InfraGraph

/-- The options of a run. -/
structure Config where
  build : BuildOptions
  lint : LintOptions
deriving DecidableEq, Repr

namespace Config

/-- The options of a run without a file. -/
def default : Config :=
  ⟨.default, .default⟩

/-- The options from JSON. -/
def read : Nat → Json → Json.Decoded Config :=
  Json.readRecord .streamed fun room =>
    Config.mk <$> Json.defaulted "build" default.build (BuildOptions.read room)
      <*> Json.defaulted "lint" default.lint (LintOptions.read room)

end Config

end InfraGraph
