/-
The fenced readiness handoff (`internal/capacity/provision_handoff.go`): bind the node, pin the expected state, commit
the release intent, and finalize around the external release callback.

`workerNodeName` is api.WorkerNodeName, a SHA-256 digest of the host ID; nothing below depends on its values.
-/
import Crane.Capacity.Operations

namespace Crane.Capacity

/-- the identity columns of worker_provisioning_state -/
structure NodeBinding where
  nodeName : String
  nodeUid : String
  providerId : String
  contractHash : String
deriving DecidableEq, Repr

/-- membership of the operation's group is ready and approved -/
def groupAdmitted (d : DB) (o : OperationRow) : Bool :=
  (o.groupId.bind d.nodeGroups.find).any fun g =>
    (d.clusterZones.find (g.clusterId, g.zoneId)).any ClusterZone.admitted

/-- the stored identity equals the proposed one -/
def ProvisioningState.sameIdentity (b : ProvisioningState) (opId : String) (n : NodeBinding) : Bool :=
  b.operationId = opId && b.nodeName = n.nodeName && b.nodeUid = n.nodeUid && b.providerId = n.providerId &&
    b.contractHash = n.contractHash

/-- INSERT ... SELECT ... ON CONFLICT(host_id) DO UPDATE ... WHERE all columns are equal: the row to store (none when the
SELECT or the conflict clause matches nothing), or a violation of UNIQUE(operation_id) or UNIQUE(node_uid) -/
def bindRow (d : DB) (op : Operation) (n : NodeBinding) : Except Err (Option ProvisioningState) :=
  match (launchingRow d op).filter (fun o => (o.hostId.bind d.hosts.find).any (fun h => h.state = .registering) &&
      groupAdmitted d o) with
  | none => .ok none
  | some o =>
    match d.provisioning.find op.hostId with
    | some b => .ok (if b.sameIdentity o.id n then some b else none)
    | none =>
      if d.provisioning.rows.any (fun b => b.operationId = o.id || b.nodeUid = n.nodeUid) then .error .uniqueViolation
      else .ok (some { hostId := op.hostId, operationId := o.id, nodeName := n.nodeName, nodeUid := n.nodeUid,
                       providerId := n.providerId, contractHash := n.contractHash })

def bindProvisionNode (workerNodeName : String → String) (op : Operation) (n : NodeBinding) : StoreTx Unit := do
  Tx.require (n.nodeName = workerNodeName op.hostId ∧ n.nodeUid ≠ "" ∧ n.providerId ≠ "" ∧
    n.contractHash.utf8ByteSize = 64) .invalid
  Tx.execute fun d => match bindRow d op n with
    | .error e => .error e
    | .ok none => .error .fenced
    | .ok (some b) => .ok [.provisioning b]

def provisionBinding (op : Operation) : StoreTx ProvisioningState := do
  let b ← Tx.select fun d => (d.provisioning.find op.hostId).filter fun b => b.operationId = op.id
  Tx.orFail b .noRows

/-- the row of `FOR UPDATE OF o,h` in `PinProvisionExpectedState` -/
def pinTarget (d : DB) (op : Operation) : Option (OperationRow × Host) := do
  let o ← heldRow d op fun o => o.hostId = some op.hostId && o.state = .launching
  let h ← d.hosts.find op.hostId
  if h.state = .registering then some (o, h) else none

/-- preserves the same request after policy changes or restarts -/
def pinProvisionExpectedState (op : Operation) (e : ExpectedHostState) : StoreTx ExpectedHostState := do
  Tx.require (e.revision = 1 ∧ e.version ≠ "" ∧ e.version.utf8ByteSize ≤ 128 ∧ e.secret = none) .invalid
  let target ← Tx.selectForUpdate
    (fun d => (pinTarget d op).toList.flatMap fun t => [.operation t.1.id, .host t.2.id]) (pinTarget · op)
  let _ ← Tx.orFail target .fenced
  let pinned ← Tx.updateReturning fun d =>
    ((d.provisioning.find op.hostId).filter fun b => b.operationId = op.id).map fun b =>
      (Row.provisioning { b with expectedState := some (b.expectedState.getD e) }, b.expectedState.getD e)
  let pinned ← Tx.orFail pinned .noRows
  Tx.require (pinned.revision = 1 ∧ pinned.version ≠ "" ∧ pinned.secret = none) .invalid
  let _ ← Tx.update fun d => (d.hosts.find op.hostId).toList.map fun h =>
    .host { h with desiredStateVersion := pinned.version }
  return pinned

/-- the pinned state has revision 1 and version `v` -/
def ProvisioningState.pins (b : ProvisioningState) (v : String) : Bool :=
  b.expectedState.any fun e => e.version = v && e.revision = 1

/-- the binding of the held operation's converging host -/
def prepareRow (d : DB) (op : Operation) (desiredVersion : String) : Option ProvisioningState := do
  let o ← heldRow d op fun o => o.state = .launching
  let h ← o.hostId.bind d.hosts.find
  let b ← d.provisioning.find h.id
  if b.operationId = o.id ∧ h.state = .converging ∧ h.desiredStateVersion = desiredVersion ∧ desiredVersion ≠ "" ∧
      b.pins desiredVersion = true ∧ groupAdmitted d o = true then some b else none

/-- commits recovery intent before any external release -/
def prepareProvisionRelease (op : Operation) (desiredVersion : String) : StoreTx Unit :=
  fencedUpdate fun d => (prepareRow d op desiredVersion).map fun b => .provisioning { b with releaseStarted := true }

/-- the rows `FinalizeProvision` locks -/
structure FinalizeTarget where
  op : OperationRow
  host : Host
  binding : ProvisioningState
  membership : ClusterZone
  zone : Zone
  cluster : Cluster

def FinalizeTarget.keys (t : FinalizeTarget) : List Key :=
  [.operation t.op.id, .host t.host.id, .provisioning t.binding.hostId, .clusterZone t.membership.key, .zone t.zone.id,
    .cluster t.cluster.id]

/-- interval '1 second' of the database clock -/
def oneSecond : ℕ := 1000000

def finalizeTarget (d : DB) (op : Operation) (desiredVersion : String) : Option FinalizeTarget := do
  let o ← (d.operations.find op.id).filter fun o => o.heldBy op (d.clock + oneSecond) && o.hostId = some op.hostId &&
    o.kind = .provision && o.state = .launching
  let h ← d.hosts.find op.hostId
  let b ← (d.provisioning.find h.id).filter fun b => b.operationId = o.id
  let g ← o.groupId.bind d.nodeGroups.find
  let m ← d.clusterZones.find (g.clusterId, g.zoneId)
  let z ← d.zones.find g.zoneId
  let c ← d.clusters.find g.clusterId
  if h.state = .converging ∧ b.releaseStarted = true ∧ h.desiredStateVersion = desiredVersion ∧
      b.pins desiredVersion = true ∧ m.admitted = true ∧ z.enabled = true ∧ z.lifecycle = .ready ∧ c.lifecycle = .ready
  then some ⟨o, h, b, m, z, c⟩ else none

/-- the host row that becomes READY: the fence is checked once more, the owner is not -/
def finalHost (d : DB) (op : Operation) : Option Host := do
  let o ← (d.operations.find op.id).filter fun o => o.fence = op.fence && o.lease.any fun l => d.clock < l.expires
  let h ← o.hostId.bind d.hosts.find
  if h.state = .converging then some h else none

/-- serializes the bounded Kubernetes release with lifecycle ownership; a failed or unknown release leaves CONVERGING
and durable recovery intent -/
def finalizeProvision (op : Operation) (desiredVersion : String) : StoreTx Unit := do
  let target ← Tx.selectForUpdate (fun d => (finalizeTarget d op desiredVersion).toList.flatMap FinalizeTarget.keys)
    (finalizeTarget · op desiredVersion)
  let _ ← Tx.orFail target .fenced
  let released ← Tx.external op
  Tx.require (released = true) .releaseFailed
  fencedUpdate fun d => (finalHost d op).map fun h =>
    .host { h with state := .ready, observedStateVersion := h.desiredStateVersion, updatedAt := d.clock }
  fencedUpdate fun d => ((d.operations.find op.id).filter fun o => o.fence = op.fence).map fun o =>
    .operation { o with state := .succeeded, lease := none, updatedAt := d.clock }

end Crane.Capacity
