/-
Capacity admission (`internal/capacity/store.go`): `SetTarget` with `loadPolicy`, `checkReservations`,
`provisionIntent` and `cancelPending`.

Every call of the store is one transaction, written statement by statement as the source issues them. Fresh UUIDs are an
input; nothing is assumed about them, an INSERT with a used key fails. A statement's time is the database clock.
-/
import Crane.Capacity.Schema
import Mathlib.Data.List.Sort

namespace Crane.Capacity

/-! ## Errors and transactions -/

inductive Err where
  | invalid | conflict | replayMismatch | forbidden | inactive | limit | template | fulfilled | fenced
  | noRows | invalidLease | invalidProviderResult | invalidRemoval | invalidRemovalReason | invalidCapacityPolicy
  | spireUnavailable | releaseFailed | uniqueViolation | checkViolation | badConn
deriving DecidableEq, Repr

def Err.message : Err → String
  | .invalid => "invalid capacity request"
  | .conflict => "target revision conflict"
  | .replayMismatch => "request ID reused with different parameters"
  | .forbidden => "node group does not belong to authenticated cluster"
  | .inactive => "node group, pool, cluster or zone inactive"
  | .limit => "capacity limit exceeded"
  | .template => "template revision mismatch"
  | .fulfilled => "target decrease would remove registered capacity"
  | .fenced => "operation lease expired or controller fenced"
  | .noRows => "sql: no rows in result set"
  | .invalidLease => "invalid operation lease"
  | .invalidProviderResult => "invalid provider result"
  | .invalidRemoval => "invalid removal operation"
  | .invalidRemovalReason => "invalid removal reason"
  | .invalidCapacityPolicy => "invalid desired capacity policy"
  | .spireUnavailable => "zone SPIRE host is unavailable"
  | .releaseFailed => "worker release failed"
  | .uniqueViolation => "duplicate key value violates unique constraint"
  | .checkViolation => "new row violates check constraint"
  | .badConn => "driver: bad connection"

/-- a transaction of the store; the only outside call is the release callback of `FinalizeProvision`, which is given the
operation and answers whether it succeeded in time -/
abbrev StoreTx := Tx DB Key Row Err Operation Bool

/-- uuid.NewString(), one for each index -/
abbrev Uuids := ℕ → String

/-! ## Policy and reservations -/

structure Policy where
  group : NodeGroup
  poolLimit : Resources
  enabled : Bool

/-- m.lifecycle_state='ready' AND m.access_state='approved' -/
def ClusterZone.admitted (m : ClusterZone) : Bool := m.lifecycle = .ready && m.access = .approved

/-- the joined row of `loadPolicy` -/
def policyOf (d : DB) (id : String) : Option Policy := do
  let g ← d.nodeGroups.find id
  let p ← d.nodePools.find g.nodePoolId
  let z ← d.zones.find g.zoneId
  let c ← d.clusters.find g.clusterId
  let m ← d.clusterZones.find (g.clusterId, g.zoneId)
  some { group := g, poolLimit := ⟨p.maxVcpu, p.maxMemoryMib, p.maxNodes⟩,
         enabled := g.lifecycle = .active && p.enabled && z.enabled && z.lifecycle = .ready && c.lifecycle = .ready &&
           m.admitted }

/-- FOR UPDATE OF g -/
def loadPolicy (id : String) : StoreTx Policy := do
  let p ← Tx.selectForUpdate (fun d => (policyOf d id).toList.map fun p => .nodeGroup p.group.id) (policyOf · id)
  Tx.orFail p .noRows

/-- a reservation that still counts against `pool` -/
def unreleased (d : DB) (pool : String) (r : Reservation) : Bool :=
  r.state ≠ .released && (d.nodeGroups.find r.groupId).any fun g => g.nodePoolId = pool

/-- the sums over a pool's reservations that are not released -/
def usedBy (d : DB) (pool : String) : Resources where
  vcpu := d.reservations.sum fun r => if unreleased d pool r then r.vcpu else 0
  memoryMib := d.reservations.sum fun r => if unreleased d pool r then r.memoryMib else 0
  nodes := d.reservations.sum fun r => if unreleased d pool r then r.nodes else 0

def checkReservations (p : Policy) (nodes : ℤ) : StoreTx Unit := do
  Tx.require (nodes ≤ maxInt64.tdiv p.group.vcpu ∧ nodes ≤ maxInt64.tdiv p.group.memoryMib) .limit
  let add : Resources := ⟨wrap64 (nodes * p.group.vcpu), wrap64 (nodes * p.group.memoryMib), nodes⟩
  let used ← Tx.select (usedBy · p.group.nodePoolId)
  Tx.require (add.vcpu ≤ wrap64 (p.poolLimit.vcpu - used.vcpu) ∧
    add.memoryMib ≤ wrap64 (p.poolLimit.memoryMib - used.memoryMib) ∧
    add.nodes ≤ wrap64 (p.poolLimit.nodes - used.nodes)) .limit

/-! ## Intents -/

/-- INSERT INTO operations; id and provider_token are unique -/
def insertOperation (o : DB → OperationRow) : StoreTx Unit :=
  Tx.execute fun d =>
    if (d.operations.find (o d).id).isSome || d.operations.rows.any (fun x => x.providerToken = (o d).providerToken) then
      .error .uniqueViolation
    else .ok [.operation (o d)]

def intentOperation (p : Policy) (requestId : String) (revision : ℤ) (u : Uuids) (d : DB) : OperationRow where
  id := u 1
  kind := .provision
  zoneId := p.group.zoneId
  groupId := some p.group.id
  hostId := some (u 0)
  capacityRequestId := some requestId
  targetRevision := revision
  providerToken := u 2
  parameters := .template ⟨p.group.launchParameters, p.group.scheduling, p.group.templateRevision, p.group.capacityClass⟩
  createdAt := d.clock
  updatedAt := d.clock

def intentHost (p : Policy) (u : Uuids) (d : DB) : Host where
  id := u 0
  zone := p.group.zoneId
  state := .requested
  createdAt := d.clock
  nodeGroupId := some p.group.id
  nodePoolId := some p.group.nodePoolId
  craneZone := some p.group.zoneId
  operationId := some (u 1)
  desiredStateVersion := p.group.templateRevision
  reservedVcpu := p.group.vcpu
  reservedMemoryMib := p.group.memoryMib
  role := p.group.capacityClass
  imageId := p.group.launchParameters.text "image_id"

def intentReservation (p : Policy) (requestId : String) (u : Uuids) : Reservation where
  id := u 3
  groupId := p.group.id
  capacityRequestId := requestId
  hostId := u 0
  vcpu := p.group.vcpu
  memoryMib := p.group.memoryMib
  state := .reserved
  check_vcpu := p.group.check_vcpu
  check_memory := p.group.check_memory
  check_nodes := rfl

/-- operation, host and reservation of one node -/
def provisionIntent (p : Policy) (requestId : String) (revision : ℤ) (u : Uuids) : StoreTx Unit := do
  insertOperation (intentOperation p requestId revision u)
  Tx.execute fun d =>
    if (d.hosts.find (u 0)).isSome then .error .uniqueViolation else .ok [.host (intentHost p u d)]
  Tx.execute fun d =>
    if (d.reservations.find (u 3)).isSome || d.reservations.rows.any (fun r => r.hostId = u 0) then
      .error .uniqueViolation
    else .ok [.reservation (intentReservation p requestId u)]

/-- the loop over `delta`; iteration `i` uses the UUIDs from `4 * i` on -/
def provisionIntents (p : Policy) (requestId : String) (revision : ℤ) (u : Uuids) : ℕ → StoreTx Unit
  | 0 => pure ()
  | n + 1 => do
    provisionIntents p requestId revision u n
    provisionIntent p requestId revision fun j => u (4 * n + j)

/-! ## Decreases -/

/-- ORDER BY created_at DESC, id -/
def newestFirst (a b : OperationRow) : Prop := b.createdAt < a.createdAt ∨ (a.createdAt = b.createdAt ∧ a.id ≤ b.id)

def newestHostFirst (a b : Host) : Prop := b.createdAt < a.createdAt ∨ (a.createdAt = b.createdAt ∧ a.id ≤ b.id)

instance : DecidableRel newestFirst := fun _ _ => inferInstanceAs (Decidable (_ ∨ _))
instance : DecidableRel newestHostFirst := fun _ _ => inferInstanceAs (Decidable (_ ∨ _))

/-- pending, unleased, and the host not past the launch boundary -/
def cancellable (d : DB) (groupId : String) (o : OperationRow) : Bool :=
  o.groupId = some groupId && o.kind = .provision && o.state = .pending && o.lease.isNone &&
    (o.hostId.bind d.hosts.find).any fun h => h.state = .requested || h.state = .provisioning

def selectCancellable (d : DB) (groupId : String) (count : ℕ) : List OperationRow :=
  ((d.operations.rows.filter (cancellable d groupId)).insertionSort newestFirst).take count

def OperationRow.cancelled (o : OperationRow) (now : ℕ) : OperationRow :=
  { o with state := .cancelled, fence := o.fence + 1, updatedAt := now }

def Host.terminated (h : Host) (now : ℕ) : Host :=
  { h with state := .terminated, reservedVcpu := 0, reservedMemoryMib := 0, updatedAt := now }

/-- the reservations of `hostId`, released -/
def releasedReservations (d : DB) (hostId : String) : List Reservation :=
  (d.reservations.rows.filter fun r => r.hostId = hostId).map fun r => { r with state := .released }

/-- release one intent's credits -/
def cancelIntent (opId hostId : String) : StoreTx Unit := do
  let _ ← Tx.update fun d => (d.operations.find opId).toList.map fun o => .operation (o.cancelled d.clock)
  let _ ← Tx.update fun d => (d.hosts.find hostId).toList.map fun h => .host (h.terminated d.clock)
  let _ ← Tx.update fun d => (releasedReservations d hostId).map .reservation

def cancelIntents : List OperationRow → StoreTx Unit
  | [] => pure ()
  | o :: os => do
    cancelIntent o.id (o.hostId.getD "")
    cancelIntents os

/-- a host that may still be marked excess -/
def markable (d : DB) (groupId : String) (h : Host) : Bool :=
  h.nodeGroupId = some groupId && (h.state = .requested || h.state = .provisioning || h.state = .booting) &&
    !h.excessCapacity && (h.operationId.bind d.operations.find).any fun o => o.state ≠ .cancelled

def selectMarkable (d : DB) (groupId : String) (count : ℕ) : List Host :=
  ((d.hosts.rows.filter (markable d groupId)).insertionSort newestHostFirst).take count

def Host.marked (h : Host) : Host := { h with excessCapacity := true }

def markExcess (groupId : String) (count : ℕ) : StoreTx Unit := do
  let _ ← Tx.update fun d => ((selectMarkable d groupId count).map Host.marked).map .host

def cancelPending (groupId : String) (count : ℕ) : StoreTx Unit := do
  let intents ← Tx.selectForUpdate (fun d => (selectCancellable d groupId count).map fun o => .operation o.id)
    (selectCancellable · groupId count)
  cancelIntents intents
  Tx.when (intents.length < count) (markExcess groupId (count - intents.length))

/-! ## SetTarget -/

/-- states in which a host counts as registered capacity -/
def HostState.registered : HostState → Bool
  | .registering | .converging | .ready | .draining | .unhealthy | .terminating => true
  | _ => false

/-- UPDATE node_groups SET target_nodes, target_revision, under the table's CHECKs -/
def NodeGroup.setTarget (g : NodeGroup) (target revision : ℤ) : Except Err NodeGroup :=
  if h : NonNeg64 revision ∧ g.minNodes ≤ target ∧ target ≤ g.maxNodes then
    .ok { g with targetNodes := target, targetRevision := revision, check_revision := h.1, check_target := h.2 }
  else .error .checkViolation

def updateTarget (groupId : String) (target : NodeGroup → ℤ) (revision : ℤ) : StoreTx Unit :=
  Tx.execute fun d => match d.nodeGroups.find groupId with
    | none => .ok []
    | some g => do
      let g' ← g.setTarget (target g) revision
      .ok [.nodeGroup g']

/-- the stored request as the fields it is compared by -/
def CapacityRequestRow.request (r : CapacityRequestRow) : CapacityRequest :=
  ⟨r.groupId, r.requestId, r.clusterId, r.expectedRevision, r.desiredTarget, r.templateRevision⟩

def previousRequest (d : DB) (groupId requestId : String) : Option CapacityRequestRow :=
  d.capacityRequests.rows.find? fun r => r.groupId = groupId && r.requestId = requestId

/-- INSERT INTO capacity_requests -/
def insertRequest (row : CapacityRequestRow) : StoreTx Unit :=
  Tx.execute fun d =>
    if (d.capacityRequests.find row.id).isSome || (previousRequest d row.groupId row.requestId).isSome then
      .error .uniqueViolation
    else .ok [.capacityRequest row]

def CapacityRequest.wellFormed (req : CapacityRequest) : Prop :=
  req.nodeGroupId ≠ "" ∧ req.requestId ≠ "" ∧ req.clusterId ≠ "" ∧ req.templateRevision ≠ "" ∧
    0 ≤ req.desiredTarget ∧ 0 ≤ req.expectedTargetRevision

instance (req : CapacityRequest) : Decidable (CapacityRequest.wellFormed req) := inferInstanceAs (Decidable (_ ∧ _))

/-- a decrease must leave the registered hosts their place -/
def checkRegistered (groupId : String) (desired : ℤ) : StoreTx Unit := do
  let registered ← Tx.select fun d => d.hosts.count fun h => h.nodeGroupId = some groupId && HostState.registered h.state
  Tx.require ((registered : ℤ) ≤ desired) .fulfilled

/-- the admission of a request that has not been seen before -/
def acceptTarget (p : Policy) (req : CapacityRequest) (u : Uuids) : StoreTx CapacityResult := do
  Tx.require (p.enabled = true) .inactive
  Tx.require (p.group.templateRevision = req.templateRevision) .template
  Tx.require (p.group.targetRevision = req.expectedTargetRevision) .conflict
  Tx.require (p.group.minNodes ≤ req.desiredTarget ∧ req.desiredTarget ≤ p.group.maxNodes ∧
    p.group.targetRevision ≠ maxInt64) .limit
  -- serialize accounting across every group sharing the pool, including AZs
  let pool ← Tx.selectForUpdate (fun d => (d.nodePools.find p.group.nodePoolId).toList.map fun x => .nodePool x.id)
    (fun d => d.nodePools.find p.group.nodePoolId)
  let pool ← Tx.orFail pool .noRows
  let p := { p with poolLimit := ⟨pool.maxVcpu, pool.maxMemoryMib, pool.maxNodes⟩ }
  let delta := req.desiredTarget - p.group.targetNodes
  Tx.when (0 < delta) (checkReservations p delta)
  Tx.when (delta < 0) (checkRegistered req.nodeGroupId req.desiredTarget)
  let revision := wrap64 (p.group.targetRevision + 1)
  insertRequest ⟨u 0, req.nodeGroupId, req.requestId, req.clusterId, req.expectedTargetRevision, req.desiredTarget,
    req.templateRevision, revision⟩
  updateTarget req.nodeGroupId (fun _ => req.desiredTarget) revision
  provisionIntents p (u 0) revision (fun j => u (j + 1)) delta.toNat
  Tx.when (delta < 0) (cancelPending req.nodeGroupId (-delta).toNat)
  return ⟨req.requestId, req.nodeGroupId, req.desiredTarget, revision⟩

/-- the only capacity admission; `ClusterID` comes from authentication -/
def setTarget (req : CapacityRequest) (u : Uuids) : StoreTx CapacityResult := do
  Tx.require (CapacityRequest.wellFormed req) .invalid
  let p ← loadPolicy req.nodeGroupId
  Tx.require (p.group.clusterId = req.clusterId) .forbidden
  let previous ← Tx.select (previousRequest · req.nodeGroupId req.requestId)
  match previous with
  | some row =>
    Tx.require (row.request = req) .replayMismatch
    return ⟨req.requestId, req.nodeGroupId, req.desiredTarget, row.resultRevision⟩
  | none => acceptTarget p req u

/-- `Target`: what an adapter reads before a change -/
def targetOf (clusterId groupId : String) : StoreTx CapacityResult := do
  let g ← Tx.select fun d => (d.nodeGroups.find groupId).filter fun g => g.clusterId = clusterId
  let g ← Tx.orFail g .noRows
  return ⟨"", groupId, g.targetNodes, g.targetRevision⟩

end Crane.Capacity
