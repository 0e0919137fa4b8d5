import InfraGraph.Json.Value
import InfraGraph.Json.Number
import InfraGraph.Json.Quoted
import InfraGraph.Json.Reader
import InfraGraph.Json.Printer
import InfraGraph.Json.Decoder
import InfraGraph.Json.Record
import InfraGraph.Json.Variant
import InfraGraph.Text.CodeRanges
import InfraGraph.Text.Shapeless
import InfraGraph.Text.Extending
import InfraGraph.Text.Escape
import InfraGraph.Source.Span
import InfraGraph.Source.File
import InfraGraph.Diagnostic.Basic
import InfraGraph.Diagnostic.Render
import InfraGraph.Tree.Identity
import InfraGraph.Tree.Literal
import InfraGraph.Tree.DeclaredType
import InfraGraph.Tree.Expr
import InfraGraph.Tree.Program
import InfraGraph.Tree.Stored
import InfraGraph.Loop.Descriptor
import InfraGraph.Symbol.Basic
import InfraGraph.Symbol.Model
import InfraGraph.Symbol.Binding
import InfraGraph.Symbol.Revision
import InfraGraph.Loop.Correlation
import InfraGraph.Graph.Operation
import InfraGraph.Graph.Visitor
import InfraGraph.Graph.Basic
import InfraGraph.Graph.Outline
import InfraGraph.Graph.Stored
import InfraGraph.Graph.Equality
import InfraGraph.Graph.Lowering
import InfraGraph.Graph.Verification
import InfraGraph.Graph.Build
import InfraGraph.Graph.Usage
import InfraGraph.Tree.Assembly
import InfraGraph.Scenario
import InfraGraph.Pipeline
import InfraGraph.CommandLine.Folder
import InfraGraph.CommandLine.Request
import InfraGraph.CommandLine.Config
import InfraGraph.CommandLine.Run
import InfraGraph.Main
import InfraGraph.Proofs.Tree.Nodes
import InfraGraph.Proofs.Loop.Correlation
import InfraGraph.Proofs.Symbol.Lookup
import InfraGraph.Proofs.Symbol.Entities
import InfraGraph.Proofs.Symbol.Scopes
import InfraGraph.Proofs.Symbol.SameLoop
import InfraGraph.Proofs.Graph.Lowering
import InfraGraph.Proofs.Graph.Elision
import InfraGraph.Proofs.Graph.Provenance
import InfraGraph.Proofs.Graph.Declarations
import InfraGraph.Proofs.Graph.Raising
import InfraGraph.Proofs.Graph.Totality
import InfraGraph.Proofs.Graph.Verification
import InfraGraph.Proofs.Graph.Substitution
import InfraGraph.Proofs.Symbol.BindingOrder
import InfraGraph.Proofs.Symbol.LoopChains
import InfraGraph.Proofs.Symbol.Comparison
import InfraGraph.Proofs.Symbol.Resolution
import InfraGraph.Proofs.Symbol.SourceShapes
import InfraGraph.Proofs.Graph.Congruence
import InfraGraph.Proofs.Graph.Contexts
import InfraGraph.Proofs.Graph.MissingIndices
import InfraGraph.Proofs.Symbol.LexicalScope
import InfraGraph.Proofs.Graph.ReferenceReports
import InfraGraph.Proofs.Graph.Restoring
import InfraGraph.Proofs.Graph.Containment
import InfraGraph.Proofs.Graph.Brackets
import InfraGraph.Proofs.Graph.OwnInstance
import InfraGraph.Proofs.Relabeling.Basic
import InfraGraph.Proofs.Relabeling.Lowering
import InfraGraph.Proofs.Relabeling.Binding
import InfraGraph.Proofs.Relabeling.Renumbering
import InfraGraph.Proofs.Graph.Locality
import InfraGraph.Proofs.Graph.DeclarationOrder
import InfraGraph.Proofs.Graph.Appending
import InfraGraph.Proofs.Loop.Places
import InfraGraph.Proofs.Relabeling.Unit
import InfraGraph.Proofs.Json.Clean
import InfraGraph.Proofs.Json.Record
import InfraGraph.Proofs.Tree.Leaves
import InfraGraph.Proofs.Tree.Stored
import InfraGraph.Proofs.Json.Text
import InfraGraph.Proofs.Graph.IndexVariables
import InfraGraph.Proofs.Graph.Soundness
import InfraGraph.Proofs.Graph.Uses
import InfraGraph.Proofs.Graph.References
import InfraGraph.Proofs.Source.Lines
import InfraGraph.Proofs.Diagnostic.Colors
import InfraGraph.Proofs.Symbol.Registry
import InfraGraph.Proofs.Symbol.BindingReports
import InfraGraph.Proofs.Graph.Traversals
