/-
Named removals: `CreateAutoscalerRemovals` (`internal/capacity/removals.go`) and `CreateRemoval`
(`internal/capacity/catalog.go`). Both lower the group's target under its row lock and leave the host rows alone.
-/
import Crane.Capacity.Admission

namespace Crane.Capacity

/-! ## CreateAutoscalerRemovals -/

/-- every node named once, with all its fields -/
def NodeRemovalRequest.wellFormed (clusterId : String) (req : NodeRemovalRequest) : Prop :=
  clusterId ≠ "" ∧ req.nodeGroupId ≠ "" ∧ req.requestId ≠ "" ∧ 0 ≤ req.expectedTargetRevision ∧ req.nodes ≠ [] ∧
    (∀ n ∈ req.nodes, n.hostId ≠ "" ∧ n.providerId ≠ "" ∧ n.nodeName ≠ "") ∧ (req.nodes.map RemovalNode.hostId).Nodup

instance (clusterId : String) (req : NodeRemovalRequest) : Decidable (NodeRemovalRequest.wellFormed clusterId req) :=
  inferInstanceAs (Decidable (_ ∧ _))

/-- the request stored in a removal operation's parameters -/
def OperationRow.removalRequest (o : OperationRow) : Option NodeRemovalRequest :=
  match o.parameters with
  | .removal r => some r
  | .template _ | .document _ => none

/-- SELECT ... FROM operations WHERE group, kind and request_id LIMIT 1 -/
def previousRemoval (d : DB) (groupId requestId : String) : Option OperationRow :=
  d.operations.rows.find? fun o => o.groupId = some groupId && o.kind = .removeNode &&
    o.removalRequest.any fun r => r.requestId = requestId

/-- a removal still owns the host -/
def removalActive (d : DB) (hostId : String) : Bool :=
  d.removals.rows.any fun r => r.hostId = hostId && r.completedAt.isNone

/-- host and its zone's provider_zone_id -/
def hostInZone (d : DB) (hostId : String) : Option (Host × String) := do
  let h ← d.hosts.find hostId
  let z ← h.craneZone.bind d.zones.find
  some (h, z.providerZoneId)

/-- the provider identity a node must present -/
def Host.identity (h : Host) (providerZoneId : String) : String :=
  if h.provider = "aws" then "aws:///" ++ providerZoneId ++ "/" ++ h.providerId.getD "" else h.providerId.getD ""

/-- checks one named node; the result is its provider ID -/
def checkNode (groupId : String) (n : RemovalNode) : StoreTx String := do
  let row ← Tx.selectForUpdate (fun d => (hostInZone d n.hostId).toList.map fun x => .host x.1.id) (hostInZone · n.hostId)
  let (h, zone) ← Tx.orFail row .noRows
  Tx.require (h.nodeGroupId.getD "" = groupId ∧ h.providerId.getD "" ≠ "" ∧ h.identity zone = n.providerId) .forbidden
  Tx.require (h.state ≠ .terminated ∧ h.state ≠ .terminating ∧ h.state ≠ .failed) .fulfilled
  let active ← Tx.select (removalActive · n.hostId)
  Tx.require (active = false) .conflict
  return h.providerId.getD ""

def checkNodes (groupId : String) : List RemovalNode → StoreTx (List String)
  | [] => pure []
  | n :: ns => do
    let p ← checkNode groupId n
    let ps ← checkNodes groupId ns
    return p :: ps

/-- INSERT INTO node_removal_operations; at most one active removal owns a host -/
def insertRemoval (r : Removal) : StoreTx Unit :=
  Tx.execute fun d =>
    if (d.removals.find r.operationId).isSome || removalActive d r.hostId then .error .uniqueViolation
    else .ok [.removal r]

def removalOperation (g : NodeGroup) (hostId : String) (revision : ℤ) (params : Parameters) (u : Uuids) (d : DB) :
    OperationRow where
  id := u 0
  kind := .removeNode
  zoneId := g.zoneId
  groupId := some g.id
  hostId := some hostId
  capacityRequestId := none
  targetRevision := revision
  providerToken := u 1
  parameters := params
  createdAt := d.clock
  updatedAt := d.clock

/-- operation and removal row of each node, in request order -/
def insertRemovals (g : NodeGroup) (req : NodeRemovalRequest) (revision : ℤ) (deadline : ℕ) :
    Uuids → List (RemovalNode × String) → StoreTx Unit
  | _, [] => pure ()
  | u, (n, providerId) :: ns => do
    insertOperation (removalOperation g n.hostId revision (.removal req) u)
    insertRemoval ⟨u 0, g.id, n.hostId, n.nodeName, providerId, .autoscalerDelete, false, deadline, none⟩
    insertRemovals g req revision deadline (fun j => u (j + 2)) ns

/-- lowers the target and takes exclusive ownership of all named hosts; `deadline` is time.Now() + 30 minutes -/
def createAutoscalerRemovals (clusterId : String) (req : NodeRemovalRequest) (u : Uuids) (deadline : ℕ) :
    StoreTx Unit := do
  Tx.require (NodeRemovalRequest.wellFormed clusterId req) .invalid
  let p ← loadPolicy req.nodeGroupId
  Tx.require (p.group.clusterId = clusterId) .forbidden
  let previous ← Tx.select (previousRemoval · req.nodeGroupId req.requestId)
  match previous with
  | some o => Tx.require (o.removalRequest = some req) .replayMismatch
  | none =>
    Tx.require (p.group.targetRevision = req.expectedTargetRevision) .conflict
    Tx.require (p.group.minNodes ≤ p.group.targetNodes - req.nodes.length ∧ p.group.targetRevision ≠ maxInt64) .limit
    -- every identity and existing removal is validated before any target changes
    let providerIds ← checkNodes req.nodeGroupId req.nodes
    let revision := wrap64 (p.group.targetRevision + 1)
    updateTarget req.nodeGroupId (fun g => g.targetNodes - req.nodes.length) revision
    insertRemovals p.group req revision deadline u (req.nodes.zip providerIds)

/-! ## CreateRemoval -/

def NodeRemovalOperation.wellFormed (clusterId : String) (r : NodeRemovalOperation) : Prop :=
  clusterId ≠ "" ∧ r.nodeGroupId ≠ "" ∧ r.hostId ≠ "" ∧ r.nodeName ≠ "" ∧ r.providerId ≠ "" ∧ r.drainDeadline ≠ none

instance (clusterId : String) (r : NodeRemovalOperation) : Decidable (NodeRemovalOperation.wellFormed clusterId r) :=
  inferInstanceAs (Decidable (_ ∧ _))

/-- a host that is not on its way out -/
def removableHost (d : DB) (hostId : String) : Option Host :=
  (d.hosts.find hostId).filter fun h => h.state ≠ .terminated && h.state ≠ .terminating && h.state ≠ .failed

/-- exclusive drain ownership of one host; autoscaler deletion lowers the target, repair and maintenance keep it -/
def createRemoval (clusterId : String) (expectedRevision : ℤ) (r : NodeRemovalOperation) (u : Uuids) :
    StoreTx String := do
  Tx.require (NodeRemovalOperation.wellFormed clusterId r) .invalidRemoval
  Tx.require (r.preserveDesiredCapacity = decide (r.reason ≠ .autoscalerDelete)) .invalidCapacityPolicy
  let p ← loadPolicy r.nodeGroupId
  Tx.require (p.group.clusterId = clusterId) .forbidden
  Tx.require (p.group.targetRevision = expectedRevision) .conflict
  let host ← Tx.selectForUpdate (fun d => (removableHost d r.hostId).toList.map fun h => .host h.id)
    (removableHost · r.hostId)
  let host ← Tx.orFail host .noRows
  Tx.require (host.nodeGroupId.getD "" = r.nodeGroupId ∧ host.providerId.getD "" = r.providerId) .forbidden
  let revision := if r.preserveDesiredCapacity then p.group.targetRevision else wrap64 (p.group.targetRevision + 1)
  Tx.when (r.preserveDesiredCapacity = false) do
    Tx.require (p.group.minNodes < p.group.targetNodes) .limit
    updateTarget p.group.id (fun g => g.targetNodes - 1) revision
  insertOperation (removalOperation p.group r.hostId revision (.document (.obj [])) u)
  insertRemoval ⟨u 0, p.group.id, r.hostId, r.nodeName, r.providerId, r.reason, r.preserveDesiredCapacity,
    r.drainDeadline.getD 0, none⟩
  return u 0

end Crane.Capacity
