/-
The capacity database (`internal/capacity/schema.sql`): row types, tables and the database state.

Column CHECKs are part of the row types, so a row that breaks one cannot be built and an UPDATE that would break one has
to fail. A lease is owner and expiry together, which is CHECK((lease_owner IS NULL) = (lease_until IS NULL)). Uniqueness
of primary keys is part of `Table`; other unique and foreign keys are checked by the statements that insert.

Left out: columns and tables no modelled statement reads (naming columns of groups, host heartbeat and RDS columns,
drain and termination status of removals, host problems, actions).
-/
import Crane.Api
import Crane.Lib.Table
import Crane.Lib.Tx

namespace Crane.Capacity

/-! ## Rows -/

structure Zone where
  id : String
  provider : String
  accountId : String
  region : String
  providerZoneId : String
  kubernetesRegion : String
  kubernetesZone : String
  enabled : Bool
  lifecycle : Lifecycle
deriving DecidableEq, Repr

structure Cluster where
  id : String
  apiServerEndpoint : String
  caCertHash : String
  lifecycle : Lifecycle
deriving DecidableEq, Repr

/-- membership of a zone in a cluster -/
structure ClusterZone where
  clusterId : String
  zoneId : String
  lifecycle : Lifecycle
  access : AccessState
deriving DecidableEq, Repr

def ClusterZone.key (m : ClusterZone) : String × String := (m.clusterId, m.zoneId)

/-- a bigint column that must not be negative -/
def NonNeg64 (x : ℤ) : Prop := 0 ≤ x ∧ x ≤ maxInt64

/-- a bigint column that must be positive -/
def Pos64 (x : ℤ) : Prop := 0 < x ∧ x ≤ maxInt64

instance (x : ℤ) : Decidable (NonNeg64 x) := inferInstanceAs (Decidable (_ ∧ _))
instance (x : ℤ) : Decidable (Pos64 x) := inferInstanceAs (Decidable (_ ∧ _))

theorem nonNeg64_zero : NonNeg64 0 := by decide

structure NodePool where
  id : String
  enabled : Bool
  maxVcpu : ℤ
  maxMemoryMib : ℤ
  maxNodes : ℤ
  check_vcpu : NonNeg64 maxVcpu
  check_memory : NonNeg64 maxMemoryMib
  check_nodes : NonNeg64 maxNodes
deriving DecidableEq, Repr

structure NodeGroup where
  id : String
  clusterId : String
  zoneId : String
  nodePoolId : String
  capacityClass : String
  providerZoneId : String
  targetNodes : ℤ
  targetRevision : ℤ
  minNodes : ℤ
  maxNodes : ℤ
  templateRevision : String
  lifecycle : GroupLifecycle
  vcpu : ℤ
  memoryMib : ℤ
  launchParameters : Json
  scheduling : SchedulingTemplate
  check_revision : NonNeg64 targetRevision
  check_min : 0 ≤ minNodes
  check_target : minNodes ≤ targetNodes ∧ targetNodes ≤ maxNodes
  check_max : maxNodes ≤ maxInt64
  check_vcpu : Pos64 vcpu
  check_memory : Pos64 memoryMib
deriving DecidableEq, Repr

/-- a durable admission record; UNIQUE(group_id, request_id) -/
structure CapacityRequestRow where
  id : String
  groupId : String
  requestId : String
  clusterId : String
  expectedRevision : ℤ
  desiredTarget : ℤ
  templateRevision : String
  resultRevision : ℤ
deriving DecidableEq, Repr

structure Host where
  id : String
  role : String := ""
  zone : String := ""
  imageId : String := ""
  state : HostState
  createdAt : ℕ := 0
  updatedAt : ℕ := 0
  provider : String := ""
  providerId : Option String := none
  endpoint : String := ""
  isProtected : Bool := false
  subdEndpoint : String := ""
  kubernetesProviderId : String := ""
  nodeGroupId : Option String := none
  nodePoolId : Option String := none
  craneZone : Option String := none
  operationId : Option String := none
  desiredStateVersion : String := ""
  observedStateVersion : String := ""
  reservedVcpu : ℤ := 0
  reservedMemoryMib : ℤ := 0
  excessCapacity : Bool := false
deriving DecidableEq, Repr

structure ZoneDominator where
  zoneId : String
  endpoint : String
  identity : String
deriving DecidableEq, Repr

/-- lease_owner and lease_until, both set or both null -/
structure Lease where
  owner : String
  expires : ℕ
deriving DecidableEq, Repr

structure OperationRow where
  id : String
  kind : OperationKind
  zoneId : String
  groupId : Option String
  hostId : Option String
  capacityRequestId : Option String
  targetRevision : ℤ
  state : OperationState := .pending
  providerToken : String
  parameters : Parameters
  lease : Option Lease := none
  fence : ℕ := 0
  lastError : String := ""
  createdAt : ℕ := 0
  updatedAt : ℕ := 0
deriving DecidableEq, Repr

/-- worker_provisioning_state: kubelet evidence and the recoverable release; `expectedState = none` is '{}' -/
structure ProvisioningState where
  hostId : String
  operationId : String
  nodeName : String
  nodeUid : String
  providerId : String
  contractHash : String
  expectedState : Option ExpectedHostState := none
  releaseStarted : Bool := false
deriving DecidableEq, Repr

structure Reservation where
  id : String
  groupId : String
  capacityRequestId : String
  hostId : String
  vcpu : ℤ
  memoryMib : ℤ
  nodes : ℤ := 1
  state : ReservationState
  check_vcpu : Pos64 vcpu
  check_memory : Pos64 memoryMib
  check_nodes : nodes = 1
deriving DecidableEq, Repr

structure Removal where
  operationId : String
  groupId : String
  hostId : String
  nodeName : String
  providerId : String
  reason : RemovalReason
  preserveDesiredCapacity : Bool
  drainDeadline : ℕ
  completedAt : Option ℕ := none
deriving DecidableEq, Repr

/-! ## The database -/

structure DB where
  /-- clock_timestamp() -/
  clock : ℕ
  zones : Table Zone.id
  clusters : Table Cluster.id
  clusterZones : Table ClusterZone.key
  nodePools : Table NodePool.id
  nodeGroups : Table NodeGroup.id
  capacityRequests : Table CapacityRequestRow.id
  hosts : Table Host.id
  zoneDominators : Table ZoneDominator.zoneId
  operations : Table OperationRow.id
  provisioning : Table ProvisioningState.hostId
  reservations : Table Reservation.id
  removals : Table Removal.operationId

/-- a row version of any table -/
inductive Row where
  | zone (r : Zone)
  | cluster (r : Cluster)
  | clusterZone (r : ClusterZone)
  | nodePool (r : NodePool)
  | nodeGroup (r : NodeGroup)
  | capacityRequest (r : CapacityRequestRow)
  | host (r : Host)
  | zoneDominator (r : ZoneDominator)
  | operation (r : OperationRow)
  | provisioning (r : ProvisioningState)
  | reservation (r : Reservation)
  | removal (r : Removal)

/-- the primary keys, which name the row locks -/
inductive Key where
  | zone (id : String)
  | cluster (id : String)
  | clusterZone (id : String × String)
  | nodePool (id : String)
  | nodeGroup (id : String)
  | capacityRequest (id : String)
  | host (id : String)
  | zoneDominator (id : String)
  | operation (id : String)
  | provisioning (id : String)
  | reservation (id : String)
  | removal (id : String)
deriving DecidableEq, Repr

def Row.key : Row → Key
  | .zone r => .zone r.id
  | .cluster r => .cluster r.id
  | .clusterZone r => .clusterZone r.key
  | .nodePool r => .nodePool r.id
  | .nodeGroup r => .nodeGroup r.id
  | .capacityRequest r => .capacityRequest r.id
  | .host r => .host r.id
  | .zoneDominator r => .zoneDominator r.zoneId
  | .operation r => .operation r.id
  | .provisioning r => .provisioning r.hostId
  | .reservation r => .reservation r.id
  | .removal r => .removal r.operationId

def DB.put (d : DB) : Row → DB
  | .zone r => { d with zones := d.zones.put r }
  | .cluster r => { d with clusters := d.clusters.put r }
  | .clusterZone r => { d with clusterZones := d.clusterZones.put r }
  | .nodePool r => { d with nodePools := d.nodePools.put r }
  | .nodeGroup r => { d with nodeGroups := d.nodeGroups.put r }
  | .capacityRequest r => { d with capacityRequests := d.capacityRequests.put r }
  | .host r => { d with hosts := d.hosts.put r }
  | .zoneDominator r => { d with zoneDominators := d.zoneDominators.put r }
  | .operation r => { d with operations := d.operations.put r }
  | .provisioning r => { d with provisioning := d.provisioning.put r }
  | .reservation r => { d with reservations := d.reservations.put r }
  | .removal r => { d with removals := d.removals.put r }

def DB.look (d : DB) : Key → Option Row
  | .zone k => (d.zones.find k).map .zone
  | .cluster k => (d.clusters.find k).map .cluster
  | .clusterZone k => (d.clusterZones.find k).map .clusterZone
  | .nodePool k => (d.nodePools.find k).map .nodePool
  | .nodeGroup k => (d.nodeGroups.find k).map .nodeGroup
  | .capacityRequest k => (d.capacityRequests.find k).map .capacityRequest
  | .host k => (d.hosts.find k).map .host
  | .zoneDominator k => (d.zoneDominators.find k).map .zoneDominator
  | .operation k => (d.operations.find k).map .operation
  | .provisioning k => (d.provisioning.find k).map .provisioning
  | .reservation k => (d.reservations.find k).map .reservation
  | .removal k => (d.removals.find k).map .removal

theorem DB.look_put_self (r : Row) (d : DB) : (d.put r).look r.key = some r := by
  cases r <;> simp [DB.put, DB.look, Row.key]

theorem DB.look_put_ne (r : Row) (d : DB) (k : Key) (h : r.key ≠ k) : (d.put r).look k = d.look k := by
  cases r <;> cases k <;> simp_all [DB.put, DB.look, Row.key, Table.find_put_ne]

instance : RowStore DB Key Row where
  key := Row.key
  put r d := d.put r
  look := DB.look
  look_put_self := DB.look_put_self
  look_put_ne := DB.look_put_ne

@[simp] theorem put_eq (r : Row) (d : DB) : RowStore.put r d = d.put r := rfl

@[simp] theorem key_eq (r : Row) : RowStore.key DB r = r.key := rfl

@[simp] theorem look_eq (d : DB) (k : Key) : RowStore.look d k = d.look k := rfl

/-- the clock moves forward by `n` -/
def DB.tick (n : ℕ) (d : DB) : DB := { d with clock := d.clock + n }

/-- the state before the first admission: topology and the hosts that capacity does not manage -/
structure Catalog where
  clock : ℕ
  zones : Table Zone.id
  clusters : Table Cluster.id
  clusterZones : Table ClusterZone.key
  nodePools : Table NodePool.id
  nodeGroups : Table NodeGroup.id
  hosts : Table Host.id
  zoneDominators : Table ZoneDominator.zoneId
  unmanaged : ∀ h ∈ hosts.rows, h.operationId = none ∧ h.nodeGroupId = none

def Catalog.db (c : Catalog) : DB :=
  ⟨c.clock, c.zones, c.clusters, c.clusterZones, c.nodePools, c.nodeGroups, .empty, c.hosts, c.zoneDominators, .empty,
    .empty, .empty, .empty⟩

end Crane.Capacity
