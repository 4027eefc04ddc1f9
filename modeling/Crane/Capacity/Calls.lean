/-
The calls of the capacity store as one interface.

`Call` lists every call with its arguments, `code` is the transaction it runs, `Reply` what it answers. The remaining
writers of topology columns (zone and cluster lifecycle, the Dominator registry, deactivation of groups and pools) are
single UPDATEs of exactly those columns, `TopologyUpdate`; template and membership updates are the store's own calls
(`UpdateNodeGroupScheduling` of scheduling.go, `UpdateClusterZone` of catalog.go).
-/
import Crane.Capacity.Handoff
import Crane.Capacity.Removals

namespace Crane.Capacity

/-! ## Catalog updates -/

/-- functions of other packages: api.WorkerNodeName (SHA-256) and api.ValidateScheduling for a template in a pool -/
structure Externals where
  workerNodeName : String → String
  validScheduling : SchedulingTemplate → String → Bool

def groupInZone (d : DB) (id : String) : Option (NodeGroup × Zone) := do
  let g ← d.nodeGroups.find id
  let z ← d.zones.find g.zoneId
  some (g, z)

/-- changes only the template revision, the scheduling view and the launch parameters; an exact repeat is idempotent -/
def updateNodeGroupScheduling (x : Externals) (id expected revision : String) (t : SchedulingTemplate) (launch : Json) :
    StoreTx Unit := do
  Tx.require (id ≠ "" ∧ expected ≠ "" ∧ revision ≠ "") .invalid
  let row ← Tx.selectForUpdate (fun d => (groupInZone d id).toList.map fun r => .nodeGroup r.1.id) (groupInZone · id)
  let (g, z) ← Tx.orFail row .noRows
  Tx.require (x.validScheduling t g.nodePoolId = true) .invalid
  Tx.require (t.region = z.kubernetesRegion ∧ t.zone = z.kubernetesZone) .invalid
  if g.templateRevision = revision then
    Tx.require (g.scheduling = t ∧ g.launchParameters = launch) .conflict
  else
    Tx.require (g.templateRevision = expected) .conflict
    let _ ← Tx.update fun d => (d.nodeGroups.find id).toList.map fun g =>
      .nodeGroup { g with templateRevision := revision, scheduling := t, launchParameters := launch }

def updateClusterZone (m : ClusterZone) : StoreTx Unit := do
  Tx.require (m.clusterId ≠ "" ∧ m.zoneId ≠ "") .invalid
  let n ← Tx.update fun d => (d.clusterZones.find m.key).toList.map fun x =>
    .clusterZone { x with lifecycle := m.lifecycle, access := m.access }
  Tx.require (n ≠ 0) .noRows

inductive TopologyUpdate where
  | zone (id : String) (enabled : Bool) (lifecycle : Lifecycle)
  | cluster (id : String) (endpoint caHash : String) (lifecycle : Lifecycle)
  | nodeGroup (id : String) (lifecycle : GroupLifecycle)
  | nodePool (id : String) (enabled : Bool)
  | zoneDominator (r : ZoneDominator)
deriving DecidableEq, Repr

def TopologyUpdate.rows (d : DB) : TopologyUpdate → List Row
  | .zone id e l => (d.zones.find id).toList.map fun z => .zone { z with enabled := e, lifecycle := l }
  | .cluster id e h l => (d.clusters.find id).toList.map fun c =>
      .cluster { c with apiServerEndpoint := e, caCertHash := h, lifecycle := l }
  | .nodeGroup id l => (d.nodeGroups.find id).toList.map fun g => .nodeGroup { g with lifecycle := l }
  | .nodePool id e => (d.nodePools.find id).toList.map fun p => .nodePool { p with enabled := e }
  | .zoneDominator r => [.zoneDominator r]

def topologyUpdate (t : TopologyUpdate) : StoreTx Unit := do
  let _ ← Tx.update t.rows

/-! ## Calls -/

inductive Call where
  | setTarget (req : CapacityRequest) (u : Uuids)
  | createAutoscalerRemovals (clusterId : String) (req : NodeRemovalRequest) (u : Uuids) (deadline : ℕ)
  | createRemoval (clusterId : String) (expectedRevision : ℤ) (r : NodeRemovalOperation) (u : Uuids)
  | updateNodeGroupScheduling (id expected revision : String) (t : SchedulingTemplate) (launch : Json)
  | updateClusterZone (m : ClusterZone)
  | topology (t : TopologyUpdate)
  | claimBootstrap (zoneId : String) (kind : OperationKind) (owner : String) (duration : Duration)
      (locked : String → Bool)
  | claimDominator (zoneId : String) (kind : OperationKind) (identity : String) (duration : Duration)
      (locked : String → Bool)
  | renew (op : Operation) (duration : Duration)
  | beginLaunch (op : Operation)
  | recordLaunchWithAddress (op : Operation) (providerId : String) (privateIp : AddressText) (nodeProviderId : String)
  | setProvisionDesiredVersion (op : Operation) (version : String)
  | setProvisionState (op : Operation) (expected next : HostState)
  | bindProvisionNode (op : Operation) (n : NodeBinding)
  | pinProvisionExpectedState (op : Operation) (e : ExpectedHostState)
  | prepareProvisionRelease (op : Operation) (desiredVersion : String)
  | finalizeProvision (op : Operation) (desiredVersion : String)
  | completeProvision (op : Operation)
  | recordProvisionFailure (op : Operation) (category : String)
  | releaseProvisionLease (op : Operation)

/-- the operation a fenced call names -/
def Call.fenced : Call → Option Operation
  | .renew op _ | .beginLaunch op | .recordLaunchWithAddress op _ _ _ | .setProvisionDesiredVersion op _
  | .setProvisionState op _ _ | .bindProvisionNode op _ | .pinProvisionExpectedState op _
  | .prepareProvisionRelease op _ | .finalizeProvision op _ | .completeProvision op | .recordProvisionFailure op _
  | .releaseProvisionLease op => some op
  | _ => none

def Call.isClaim : Call → Bool
  | .claimBootstrap _ _ _ _ _ | .claimDominator _ _ _ _ _ => true
  | _ => false

inductive Reply where
  | unit
  | target (r : CapacityResult)
  | removal (id : String)
  | operation (op : Operation)
  | pinned (e : ExpectedHostState)
deriving DecidableEq, Repr

variable (x : Externals)

def code : Call → StoreTx Reply
  | .setTarget req u => do return .target (← setTarget req u)
  | .createAutoscalerRemovals c req u t => do createAutoscalerRemovals c req u t; return .unit
  | .createRemoval c e r u => do return .removal (← createRemoval c e r u)
  | .updateNodeGroupScheduling id e r t l => do updateNodeGroupScheduling x id e r t l; return .unit
  | .updateClusterZone m => do updateClusterZone m; return .unit
  | .topology t => do topologyUpdate t; return .unit
  | .claimBootstrap z k o d s => do return .operation (← claimBootstrap z k o d s)
  | .claimDominator z k o d s => do return .operation (← claimDominator z k o d s)
  | .renew op d => do renew op d; return .unit
  | .beginLaunch op => do beginLaunch op; return .unit
  | .recordLaunchWithAddress op p a n => do recordLaunchWithAddress op p a n; return .unit
  | .setProvisionDesiredVersion op v => do setProvisionDesiredVersion op v; return .unit
  | .setProvisionState op e n => do setProvisionState op e n; return .unit
  | .bindProvisionNode op n => do bindProvisionNode x.workerNodeName op n; return .unit
  | .pinProvisionExpectedState op e => do return .pinned (← pinProvisionExpectedState op e)
  | .prepareProvisionRelease op v => do prepareProvisionRelease op v; return .unit
  | .finalizeProvision op v => do finalizeProvision op v; return .unit
  | .completeProvision op => do completeProvision op; return .unit
  | .recordProvisionFailure op c => do recordProvisionFailure op c; return .unit
  | .releaseProvisionLease op => do releaseProvisionLease op; return .unit

/-! ## A fleet of one group -/

namespace Fleet

def launchParameters : Json := .obj [("image_id", .str "ami"), ("instance_type", .str "m5"), ("subnet_id", .str "subnet"),
  ("security_group_ids", .arr [.str "sg"]), ("iam_instance_profile", .str "dep-worker")]

def group : NodeGroup where
  id := "g"
  clusterId := "c"
  zoneId := "z"
  nodePoolId := "p"
  capacityClass := "std"
  providerZoneId := "r-a"
  targetNodes := 0
  targetRevision := 0
  minNodes := 0
  maxNodes := 5
  templateRevision := "t1"
  lifecycle := .active
  vcpu := 2
  memoryMib := 4
  launchParameters := launchParameters
  scheduling := { instanceType := "m5", region := "r", zone := "r-a" }
  check_revision := by decide
  check_min := by decide
  check_target := by decide
  check_max := by decide
  check_vcpu := by decide
  check_memory := by decide

/-- the zone's SPIRE server, a protected host that capacity does not manage -/
def spire : Host :=
  { id := "spire", role := "spire", zone := "z", state := .ready, providerId := some "i-spire", isProtected := true }

def catalog : Catalog where
  clock := 0
  zones := Table.empty.put ⟨"z", "aws", "account", "r", "r-a", "r", "r-a", true, .ready⟩
  clusters := Table.empty.put ⟨"c", "https://c", "hash", .ready⟩
  clusterZones := Table.empty.put ⟨"c", "z", .ready, .approved⟩
  nodePools := Table.empty.put ⟨"p", true, 100, 1000, 10, by decide, by decide, by decide⟩
  nodeGroups := Table.empty.put group
  hosts := Table.empty.put spire
  zoneDominators := Table.empty.put ⟨"z", "cell", "dom"⟩
  unmanaged := by decide

def externals : Externals := ⟨fun name => name, fun _ _ => true⟩

/-- the target of the group goes from revision `revision` to `target`; the request's number makes its IDs -/
def retargeting (number : String) (revision target : ℤ) : Call :=
  .setTarget ⟨"g", number, "c", revision, target, "t1"⟩ fun n => number ++ "-" ++ toString n

end Fleet

end Crane.Capacity
