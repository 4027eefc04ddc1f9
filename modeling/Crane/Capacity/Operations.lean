/-
Leases and the provisioning steps of an operation (`internal/capacity/store.go`): `claim`, `Renew`, `BeginLaunch`,
`RecordLaunchWithAddress`, `LoadProvisioningTarget`, `SetProvisionDesiredVersion`, `SetProvisionState`,
`CompleteProvision`, `RecordProvisionFailure`, `ReleaseProvisionLease`, and `Host`.

All but `claim` are fenced: they change rows only for the owner and fence of the operation's current, unexpired lease.
-/
import Crane.Capacity.Admission

namespace Crane.Capacity

/-! ## Claims -/

/-- the caller's (owner, fence) is the row's and the lease has not run out -/
def OperationRow.heldBy (o : OperationRow) (op : Operation) (now : ℕ) : Bool :=
  o.fence = op.fence && o.lease.any fun l => l.owner = op.leaseOwner && now < l.expires

/-- a registered Dominator `identity` of the operation's zone, under an admitted membership of its group -/
def authorized (d : DB) (o : OperationRow) (identity : String) : Bool :=
  (o.groupId.bind d.nodeGroups.find).any fun g => g.zoneId = o.zoneId &&
    (d.clusterZones.find (g.clusterId, g.zoneId)).any ClusterZone.admitted &&
    (d.zoneDominators.find o.zoneId).any fun z => z.identity = identity

/-- the host is beyond the provider launch boundary and not finished -/
def HostState.launched : HostState → Bool
  | .booting | .registering | .converging => true
  | _ => false

/-- EXISTS(host of the operation in a launched state) -/
def hostLaunched (d : DB) (o : OperationRow) : Bool := (o.hostId.bind d.hosts.find).any fun h => HostState.launched h.state

/-- ORDER BY created_at, id -/
def oldestFirst (a b : OperationRow) : Prop := a.createdAt < b.createdAt ∨ (a.createdAt = b.createdAt ∧ a.id ≤ b.id)

instance : DecidableRel oldestFirst := fun _ _ => inferInstanceAs (Decidable (_ ∨ _))

def claimable (d : DB) (zoneId : String) (kind : OperationKind) (owner : String) (authorize : Bool) (o : OperationRow) :
    Bool :=
  o.zoneId = zoneId && o.kind = kind &&
    (o.state = .pending || ((o.state = .leased || o.state = .launching) && o.lease.all fun l => l.expires ≤ d.clock)) &&
    (!authorize || authorized d o owner)

/-- the row version a claim stores -/
def OperationRow.claimed (o : OperationRow) (d : DB) (owner : String) (duration : Duration) : OperationRow :=
  { o with state := if o.kind = .provision && hostLaunched d o then .launching else .leased,
           lease := some ⟨owner, d.clock + duration.micros⟩, fence := o.fence + 1, updatedAt := d.clock }

/-- RETURNING, with COALESCE on the nullable columns -/
def OperationRow.toOperation (o : OperationRow) : Operation where
  id := o.id
  kind := o.kind
  zoneId := o.zoneId
  nodeGroupId := o.groupId.getD ""
  hostId := o.hostId.getD ""
  capacityRequestId := o.capacityRequestId.getD ""
  targetRevision := o.targetRevision
  state := o.state
  providerToken := o.providerToken
  parameters := o.parameters
  leaseOwner := (o.lease.map Lease.owner).getD ""
  leaseUntil := (o.lease.map Lease.expires).getD 0
  fence := o.fence
  lastError := o.lastError
  createdAt := o.createdAt
  updatedAt := o.updatedAt

/-- FOR UPDATE SKIP LOCKED LIMIT 1; `locked` says which rows other transactions hold at that moment -/
def claimCandidate (d : DB) (zoneId : String) (kind : OperationKind) (owner : String) (authorize : Bool)
    (locked : String → Bool) : Option OperationRow :=
  ((d.operations.rows.filter fun o => claimable d zoneId kind owner authorize o && !locked o.id).insertionSort
    oldestFirst).head?

def claim (zoneId : String) (kind : OperationKind) (owner : String) (duration : Duration) (authorize : Bool)
    (locked : String → Bool) : StoreTx Operation := do
  Tx.require (zoneId ≠ "" ∧ owner ≠ "" ∧ millisecond ≤ duration ∧ duration ≤ oneDay) .invalidLease
  let op ← Tx.updateReturning fun d => (claimCandidate d zoneId kind owner authorize locked).map fun o =>
    (.operation (o.claimed d owner duration), (o.claimed d owner duration).toOperation)
  Tx.orFail op .noRows

/-- `Claim`: provider-neutral zone bootstrap only -/
def claimBootstrap (zoneId : String) (kind : OperationKind) (owner : String) (duration : Duration)
    (locked : String → Bool) : StoreTx Operation := do
  Tx.require (kind = .createCluster) .forbidden
  claim zoneId kind owner duration false locked

/-- `ClaimDominator`: the registered Dominator of the zone only -/
def claimDominator (zoneId : String) (kind : OperationKind) (identity : String) (duration : Duration)
    (locked : String → Bool) : StoreTx Operation := do
  Tx.require (kind = .provision ∨ kind = .removeNode) .forbidden
  claim zoneId kind identity duration true locked

/-! ## Fenced statements -/

/-- an UPDATE of at most one row that fails with `e` unless it affected exactly one -/
def updateOne (q : DB → Option Row) (e : Err) : StoreTx Unit := do
  let n ← Tx.update fun d => (q d).toList
  Tx.require (n = 1) e

/-- `fencedResult` -/
def fencedUpdate (q : DB → Option Row) : StoreTx Unit := updateOne q .fenced

/-- the operation row `op` names, if `p` holds of it and `op` holds its lease -/
def heldRow (d : DB) (op : Operation) (p : OperationRow → Bool) : Option OperationRow :=
  (d.operations.find op.id).filter fun o => o.heldBy op d.clock && p o

/-- state IN ('leased','launching') -/
def OperationState.active : OperationState → Bool
  | .leased | .launching => true
  | _ => false

def renew (op : Operation) (duration : Duration) : StoreTx Unit := do
  Tx.require (millisecond ≤ duration ∧ duration ≤ oneDay) .invalidLease
  fencedUpdate fun d =>
    (heldRow d op fun o => OperationState.active o.state &&
      (o.kind = .createCluster || o.kind = .attachZone || authorized d o op.leaseOwner)).map fun o =>
      .operation { o with lease := some ⟨op.leaseOwner, d.clock + duration.micros⟩, updatedAt := d.clock }

/-- must succeed immediately before a provider call -/
def beginLaunch (op : Operation) : StoreTx Unit :=
  fencedUpdate fun d =>
    (heldRow d op fun o => OperationState.active o.state && authorized d o op.leaseOwner).map fun o =>
      .operation { o with state := .launching, updatedAt := d.clock }

/-- net.JoinHostPort, which brackets IPv6 addresses -/
def joinHostPort (host port : String) : String :=
  if host.toList.contains ':' then "[" ++ host ++ "]:" ++ port else host ++ ":" ++ port

/-- an operation of kind provision with the caller's host, launching and held by the caller -/
def launchingRow (d : DB) (op : Operation) : Option OperationRow :=
  heldRow d op fun o => o.kind = .provision && o.hostId = some op.hostId && o.state = .launching

/-- the host row after a confirmed launch, if its pinned identities allow it -/
def Host.launchedAs (h : Host) (z : Zone) (now : ℕ) (providerId endpoint nodeProviderId : String) : Option Host :=
  if (h.providerId = none ∨ h.providerId = some "" ∨ h.providerId = some providerId) ∧
      (h.kubernetesProviderId = "" ∨ nodeProviderId = "" ∨ h.kubernetesProviderId = nodeProviderId) then
    some { h with
      providerId := some providerId
      kubernetesProviderId := if nodeProviderId = "" then h.kubernetesProviderId else nodeProviderId
      endpoint := if endpoint = "" then h.endpoint else endpoint
      subdEndpoint := if endpoint = "" then h.subdEndpoint else endpoint
      provider := z.provider
      state := if h.state = .provisioning ∨ h.state = .booting then .booting else h.state
      updatedAt := now }
  else none

/-- UPDATE host ... FROM zones of a recorded launch -/
def launchedHost (d : DB) (op : Operation) (providerId endpoint nodeProviderId : String) : Option Host := do
  let h ← d.hosts.find op.hostId
  let z ← h.craneZone.bind d.zones.find
  h.launchedAs z d.clock providerId endpoint nodeProviderId

/-- the reservations of `hostId` that become committed -/
def committedReservations (d : DB) (hostId : String) : List Reservation :=
  (d.reservations.rows.filter fun r => r.hostId = hostId && r.state = .reserved).map fun r => { r with state := .committed }

def recordLaunchWithAddress (op : Operation) (providerId : String) (privateIp : AddressText) (nodeProviderId : String) :
    StoreTx Unit := do
  Tx.require (op.kind = .provision ∧ providerId ≠ "") .invalidProviderResult
  fencedUpdate fun d => (launchingRow d op).map fun o => .operation { o with updatedAt := d.clock }
  Tx.require (privateIp.text = "" ∨ privateIp.isPrivate = true) .invalid
  let endpoint := if privateIp.text = "" then "" else "https://" ++ joinHostPort privateIp.text "44001"
  updateOne (fun d => (launchedHost d op providerId endpoint nodeProviderId).map .host) .conflict
  let _ ← Tx.update fun d => (committedReservations d op.hostId).map .reservation

/-! ## The controller's reads -/

def hostOf (id : String) : StoreTx Host := do
  let h ← Tx.select fun d => d.hosts.find id
  Tx.orFail h .noRows

/-- the zone's SPIRE server host: protected, not capacity-managed, oldest first -/
def spireInstance (d : DB) (zoneId : String) : String :=
  let spire := d.hosts.rows.filter fun h => h.isProtected && h.craneZone.isNone && h.zone = zoneId && h.role = "spire"
  ((spire.insertionSort fun a b => a.createdAt ≤ b.createdAt).head?.bind Host.providerId).getD ""

/-- the operation with the runtime facts of the trusted catalog -/
def hydrate (d : DB) (op : Operation) (t : ProvisioningTemplate) : Option Operation := do
  let g ← (d.nodeGroups.find op.nodeGroupId).filter fun g => g.zoneId = op.zoneId
  let z ← (d.zones.find g.zoneId).filter fun z => z.lifecycle = .ready && z.enabled
  let c ← (d.clusters.find g.clusterId).filter fun c => c.lifecycle = .ready
  let _ ← (d.clusterZones.find (g.clusterId, g.zoneId)).filter ClusterZone.admitted
  some { op with
    launchParameters := t.launchParameters, scheduling := t.scheduling
    templateRevision := t.templateRevision, capacityClass := t.capacityClass
    clusterId := g.clusterId, nodePoolId := g.nodePoolId, provider := z.provider, accountId := z.accountId
    region := z.region, providerZoneId := z.providerZoneId, kubernetesRegion := z.kubernetesRegion
    kubernetesZone := z.kubernetesZone, apiServerEndpoint := c.apiServerEndpoint, caCertHash := c.caCertHash
    spireInstanceId := spireInstance d z.id }

/-- immutable operation parameters remain the launch template only -/
def loadProvisioningTarget (op : Operation) : StoreTx Operation := do
  Tx.require (op.kind = .provision ∧ op.hostId ≠ "" ∧ op.nodeGroupId ≠ "") .invalid
  match op.parameters with
  | .template t =>
    Tx.require (t.templateRevision ≠ "" ∧ t.capacityClass ≠ "") .invalid
    let target ← Tx.select (hydrate · op t)
    let target ← Tx.orFail target .inactive
    Tx.require (target.spireInstanceId ≠ "") .spireUnavailable
    Tx.require (target.scheduling.zone = "" ∨
      (target.scheduling.region = target.kubernetesRegion ∧ target.scheduling.zone = target.kubernetesZone)) .invalid
    return target
  | .removal _ | .document _ => Tx.fail .invalid

/-! ## Lifecycle of the host -/

/-- the host of a launching provision operation that the caller holds, in state `s` -/
def heldHost (d : DB) (op : Operation) (s : HostState) : Option Host := do
  let o ← heldRow d op fun o => o.kind = .provision && o.state = .launching
  let h ← o.hostId.bind d.hosts.find
  if h.state = s then some h else none

def setProvisionDesiredVersion (op : Operation) (version : String) : StoreTx Unit := do
  Tx.require (op.kind = .provision ∧ version ≠ "" ∧ version.utf8ByteSize ≤ 128) .invalid
  fencedUpdate fun d => (heldHost d op .registering).map fun h =>
    .host { h with desiredStateVersion := version, updatedAt := d.clock }

/-- the handoffs a controller may persist by itself -/
def HostState.handoff : HostState → Option HostState
  | .requested => some .provisioning
  | .booting => some .registering
  | .registering => some .converging
  | _ => none

def setProvisionState (op : Operation) (expected next : HostState) : StoreTx Unit := do
  Tx.require (op.kind = .provision ∧ HostState.handoff expected = some next) .invalid
  fencedUpdate fun d => (heldHost d op expected).map fun h => .host { h with state := next, updatedAt := d.clock }

/-- the host is READY with a provider ID and a started release of this operation -/
def handedOff (d : DB) (o : OperationRow) : Bool :=
  (o.hostId.bind d.hosts.find).any fun h => h.state = .ready && h.providerId.any (· ≠ "") &&
    (d.provisioning.find h.id).any fun b => b.operationId = o.id && b.releaseStarted

def completeProvision (op : Operation) : StoreTx Unit :=
  fencedUpdate fun d => ((launchingRow d op).filter (handedOff d)).map fun o =>
    .operation { o with state := .succeeded, lease := none, updatedAt := d.clock }

/-- stores only a bounded, non-secret failure category -/
def recordProvisionFailure (op : Operation) (category : String) : StoreTx Unit := do
  Tx.require (category ≠ "" ∧ category.utf8ByteSize ≤ 80) .invalid
  fencedUpdate fun d => (heldRow d op fun o => o.kind = .provision && OperationState.active o.state).map fun o =>
    .operation { o with lastError := category, updatedAt := d.clock }

def releaseProvisionLease (op : Operation) : StoreTx Unit :=
  fencedUpdate fun d => (heldRow d op fun o => o.kind = .provision && OperationState.active o.state).map fun o =>
    .operation { o with state := if hostLaunched d o then .launching else .pending, lease := none, updatedAt := d.clock }

end Crane.Capacity
