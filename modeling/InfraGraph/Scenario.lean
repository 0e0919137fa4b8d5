import InfraGraph.Tree.Assembly

/-!
# Scenarios

Small units that show how loops, brackets and nesting work together. Those with places worth looking
at name them.
-/

namespace InfraGraph

/-- A unit and the nodes in it worth looking at. -/
structure Scenario where
  program : BoundProgram
  marks : List SyntaxId

namespace Scenario

open Assembly

/-- An array of strings. -/
def strings : DeclaredType :=
  .array .string

/-- The type of storage accounts. -/
def storageType : String :=
  "Microsoft.Storage/storageAccounts@2023-01-01"

/-- `range(0, 3)`. -/
def rangeOfThree : Assembly Expr := do
  let low ← int 0
  let high ← int 3
  node (.call · "range" [low, high])

/-- A parameter without a default. -/
def parameter (name : String) (type : DeclaredType) : Assembly Declaration :=
  declare name (.parameter type) none

/-- A resource of the unit's scope. -/
def resource (name type : String) (value : Expr) : Assembly Declaration :=
  declare name (.resource type none) (some value)

/-- An output. -/
def output (name : String) (type : DeclaredType) (value : Expr) : Assembly Declaration :=
  declare name (.output type) (some value)

/-- A variable. -/
def bindVariable (name : String) (value : Expr) : Assembly Declaration :=
  declare name .variable (some value)

/-- A looped storage account; a looped diagnostic setting over the same range, which refers to it;
and an output that refers to it without an index. Marked are the two references. -/
def storage : Assembly Scenario := do
  let source ← rangeOfThree
  let i ← reference "i"
  let name ← node (.interpolation · ["s", ""] [i])
  let body ← object [("name", name)]
  let value ← loop "i" none source body
  let account ← resource "storage" storageType value
  let inside ← reference "storage"
  let source ← rangeOfThree
  let target ← property inside "id"
  let body ← object [("target", target)]
  let value ← loop "j" none source body
  let diagnostics ←
    resource "diag" "Microsoft.Insights/diagnosticSettings@2021-05-01-preview" value
  let outside ← reference "storage"
  let id ← property outside "id"
  let out ← output "storageId" .string id
  return ⟨.ofDeclarations [account, diagnostics, out], [inside.id, outside.id]⟩

/-- A looped storage account with a looped container inside, and a lock that loops over the same
accounts. Marked are the references in the lock: to the account; to the container from inside both
loops; to the container from inside the outer loop; and the same with an index. -/
def nested : Assembly Scenario := do
  let accounts ← parameter "accounts" strings
  let containers ← parameter "containers" strings
  let source ← reference "accounts"
  let account ← reference "account"
  let body ← object [("name", account)]
  let value ← loop "account" none source body
  let parent ← resource "storage" storageType value
  let source ← reference "containers"
  let container ← reference "container"
  let body ← object [("name", container)]
  let value ← loop "container" (some "j") source body
  let child ←
    resource "blob" "Microsoft.Storage/storageAccounts/blobServices/containers@2023-01-01" value
  let parent := { parent with children := [child] }
  let account ← reference "storage"
  let accountId ← property account "id"
  let inBoth ← reference "storage::blob"
  let source ← reference "containers"
  let containerId ← property inBoth "id"
  let inner ← loop "c" none source containerId
  let inOuter ← reference "storage::blob"
  let partly ← property inOuter "name"
  let indexed ← reference "storage::blob"
  let zero ← int 0
  let access ← element indexed zero
  let first ← property access "name"
  let source ← reference "accounts"
  let body ←
    object [("storage", accountId), ("containers", inner), ("partial", partly), ("first", first)]
  let value ← loop "a" none source body
  let lock ← resource "lock" "Microsoft.Authorization/locks@2020-05-01" value
  return ⟨.ofDeclarations [accounts, containers, parent, lock],
    [account.id, inBoth.id, inOuter.id, indexed.id]⟩

/-- A looped module, a guarded resource, and variables and outputs that refer to them with and
without an index. -/
def modules : Assembly Scenario := do
  let regions ← parameter "regions" strings
  let deploy ← parameter "deploy" .bool
  let source ← reference "regions"
  let region ← reference "region"
  let body ← object [("location", region)]
  let value ← loop "region" none source body
  let net ← declare "net" (.module "modules/network.keel" none) (some value)
  let guard ← reference "deploy"
  let name ← string "kv"
  let body ← object [("name", name)]
  let value ← node (.guarded · guard body)
  let vault ← resource "vault" "Microsoft.KeyVault/vaults@2023-02-01" value
  let all ← reference "net"
  let zero ← int 0
  let access ← element all zero
  let outputs ← property access "outputs"
  let firstNet ← bindVariable "firstNet" outputs
  let all ← reference "net"
  let allNets ← bindVariable "allNets" all
  let source ← reference "regions"
  let r ← reference "r"
  let value ← loop "r" none source r
  let names ← bindVariable "names" value
  let all ← reference "names"
  let zero ← int 0
  let access ← element all zero
  let firstName ← output "firstName" .string access
  let condition ← reference "deploy"
  let guardedVault ← reference "vault"
  let name ← property guardedVault "name"
  let fallback ← reference "firstNet"
  let choice ← node (.ternary · condition name fallback)
  let vaultName ← output "vaultName" .string choice
  return ⟨.ofDeclarations
    [regions, deploy, net, vault, firstNet, allNets, names, firstName, vaultName], []⟩

/-- A looped storage account and an output that refers to its first instance. -/
def small : Assembly Scenario := do
  let names ← parameter "names" strings
  let source ← reference "names"
  let n ← reference "n"
  let body ← object [("name", n)]
  let value ← loop "n" none source body
  let account ← resource "storage" storageType value
  let all ← reference "storage"
  let zero ← int 0
  let access ← element all zero
  let id ← property access "id"
  let out ← output "firstId" .string id
  return ⟨.ofDeclarations [names, account, out], []⟩

/-- The scenario of a name. -/
def named? (name : String) : Option Scenario :=
  ([("storage", storage), ("nested", nested), ("module", modules), ("small", small)].lookup
    name).map fun scenario => (scenario.run 0).1

end Scenario

end InfraGraph
