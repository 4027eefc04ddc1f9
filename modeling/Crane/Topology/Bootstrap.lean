/-
The bootstrap of a first zone (`internal/capacity/bootstrap_contract.go`, `bootstrap_discovery.go`, `bootstrap_host.go`,
`bootstrap_dominator.go`, `bootstrap_phases.go`, `bootstrap_worker.go` and `BootstrapPhase` of `catalog.go`), and the
store with all its callers as one machine.

`CreateBootstrap` is two steps here. The first takes the advisory lock of the cluster and decides whether the request is
new; the second seeds the topology, inserts the operation and commits, which releases the lock. Anything may run in
between that does not wait for that lock. The rest of the second step needs no finer grain: it holds the rows it seeds,
so no phase of the same zone or cluster can commit between its statements.

A controller calls with the copy of an operation that a claim handed to it. Whether a URL is acceptable is part of the
text (`UrlText`), as for addresses.
-/
import Crane.Topology.Seed

namespace Crane.Topology

open Capacity

/-! ## Phases -/

namespace ZoneBootstrapPhase

/-- `bootstrapNext` of a create_cluster operation -/
def next : ZoneBootstrapPhase → Option ZoneBootstrapPhase
  | requested => some infrastructureProvisioning
  | infrastructureProvisioning => some controlPlaneInitializing
  | controlPlaneInitializing => some networkInstalling
  | networkInstalling => some dominatorInstalling
  | dominatorInstalling => some validating
  | validating => some ready
  | ready => none
  | failed => none

/-- phase IN ('Ready','Failed') -/
def terminal : ZoneBootstrapPhase → Bool
  | ready | failed => true
  | _ => false

end ZoneBootstrapPhase

inductive BootstrapError where
  | store (e : Err)
  | notBootstrap | invalidTransition | notValidated | hostConflict | attachmentUnavailable
deriving DecidableEq, Repr

def BootstrapError.message : BootstrapError → String
  | .store e => e.message
  | .notBootstrap => "not a bootstrap operation"
  | .invalidTransition => "invalid bootstrap phase transition"
  | .notValidated => "bootstrap handoff has not been validated"
  | .hostConflict => "bootstrap host identity conflict"
  | .attachmentUnavailable => "zone attachment is unavailable pending its replacement"

/-- a call in its own transaction: the committed state and the answer -/
abbrev BootstrapCall := Site → Site × Except BootstrapError Unit

def fails (e : BootstrapError) : BootstrapCall := fun s => (s, .error e)

/-- a URL together with what the checks on its parts say -/
structure UrlText where
  text : String
  accepted : Bool
deriving DecidableEq, Repr

/-- a URL together with its path, if it is a spiffe one with a host and nothing else -/
structure IdentityText where
  text : String
  path : Option String
deriving DecidableEq, Repr

/-- public discovery and opaque provider identity of a provider step -/
structure BootstrapStepResult where
  apiServerEndpoint : UrlText := ⟨"", false⟩
  caCertHash : String := ""
  providerHostId : String := ""
  hostPrivateIp : AddressText := ⟨"", false⟩
  imageId : String := ""
  dominatorEndpoint : UrlText := ⟨"", false⟩
  dominatorIdentity : IdentityText := ⟨"", none⟩
deriving DecidableEq, Repr

/-! ## Calls of a controller -/

/-- the bootstrap of an operation that the caller holds -/
def heldBootstrap (s : Site) (op : Operation) : Option (OperationRow × Bootstrap) := do
  let o ← heldRow s.db op fun o => OperationState.active o.state
  let b ← s.bootstraps.find o.id
  some (o, b)

/-- UPDATE of the phase; a terminal one also ends the operation and its lease -/
def advance (o : OperationRow) (b : Bootstrap) (next : ZoneBootstrapPhase) (s : Site) : Site :=
  let s := { s with bootstraps := s.bootstraps.put { b with phase := next } }
  if next.terminal then
    s.put (.operation { o with
      state := if next = .ready then .succeeded else .failed
      lease := none
      updatedAt := s.db.clock })
  else s

/-- UPDATE clusters and zones SET lifecycle_state='ready' WHERE lifecycle_state='initializing' -/
def clusterReady (id : String) (s : Site) : Site :=
  match s.db.clusters.find id with
  | some c => if c.lifecycle = .initializing then s.put (.cluster { c with lifecycle := .ready }) else s
  | none => s

def zoneReady (id : String) (s : Site) : Site :=
  match s.db.zones.find id with
  | some z => if z.lifecycle = .initializing then s.put (.zone { z with lifecycle := .ready }) else s
  | none => s

/-- the membership becomes ready and approved, if nobody has changed it -/
def membershipReady (clusterId zoneId : String) (s : Site) : Option Site :=
  match s.db.clusterZones.find (clusterId, zoneId) with
  | some m =>
    if m.lifecycle = .initializing ∧ m.access = .pending then
      some (s.put (.clusterZone { m with lifecycle := .ready, access := .approved }))
    else none
  | none => none

/-- the part of a phase call under the locks of its operation and bootstrap -/
def enterPhase (op : Operation) (next : ZoneBootstrapPhase) (validated : Bool) (o : OperationRow) (b : Bootstrap) :
    BootstrapCall := fun s =>
  if next ≠ .failed ∧ b.phase.next ≠ some next then fails .invalidTransition s
  else if next = .ready ∧ validated = false then fails .notValidated s
  else if next = .ready then
    match membershipReady b.clusterId op.zoneId (zoneReady op.zoneId (clusterReady b.clusterId s)) with
    | some s' => (advance o b next s', .ok ())
    | none => fails (.store .conflict) s
  else (advance o b next s, .ok ())

def bootstrapPhase (op : Operation) (next : ZoneBootstrapPhase) (validated : Bool) : BootstrapCall := fun s =>
  if op.kind ≠ .createCluster then fails .notBootstrap s
  else match heldBootstrap s op with
    | none => fails (.store .fenced) s
    | some (o, b) => enterPhase op next validated o b s

/-- `^sha256:[a-f0-9]{64}$` -/
def caHash (s : String) : Bool :=
  let digits := s.toList.drop 7
  s.toList.take 7 = "sha256:".toList && digits.length = 64 && digits.all fun c => c.isDigit || ('a' ≤ c && c ≤ 'f')

/-- the cluster of a held bootstrap in its infrastructure phase, if the discovery is new or the same -/
def discoverable (s : Site) (op : Operation) (endpoint hash : String) : Option Cluster := do
  let (o, b) ← heldBootstrap s op
  let c ← s.db.clusters.find b.clusterId
  if o.kind = .createCluster ∧ b.phase = .infrastructureProvisioning ∧ c.lifecycle = .initializing ∧
      (c.apiServerEndpoint = "" ∨ c.apiServerEndpoint = endpoint) ∧ (c.caCertHash = "" ∨ c.caCertHash = hash) then
    some c
  else none

def setClusterDiscovery (op : Operation) (r : BootstrapStepResult) : BootstrapCall := fun s =>
  if op.kind = .createCluster ∧ r.apiServerEndpoint.accepted = true ∧ caHash r.caCertHash = true then
    match discoverable s op r.apiServerEndpoint.text r.caCertHash with
    | some c =>
      (s.put (.cluster { c with apiServerEndpoint := r.apiServerEndpoint.text, caCertHash := r.caCertHash }), .ok ())
    | none => fails (.store .fenced) s
  else fails (.store .invalid) s

/-- 1 to 200 letters, digits, dots, underscores, colons, slashes and hyphens -/
def providerInstanceId (s : String) : Bool :=
  1 ≤ s.length && s.length ≤ 200 &&
    s.toList.all fun c => c.isAlphanum || c = '.' || c = '_' || c = ':' || c = '/' || c = '-'

def bootstrapHostId (op : Operation) : String := "bootstrap/" ++ op.id

/-- the host a bootstrap records: protected and outside node groups -/
def bootstrapHost (op : Operation) (r : BootstrapStepResult) (now : ℕ) : Host where
  id := bootstrapHostId op
  role := "cluster-control-plane"
  zone := op.zoneId
  imageId := r.imageId
  state := .converging
  createdAt := now
  provider := "aws"
  providerId := some r.providerHostId
  isProtected := true
  subdEndpoint := "https://" ++ r.hostPrivateIp.text ++ ":44001"

/-- ON CONFLICT: the same protected instance takes the new image, zone and endpoint -/
def Host.rerecorded (h new : Host) : Host :=
  { h with
    role := new.role, zone := new.zone, imageId := new.imageId, provider := new.provider, providerId := new.providerId
    isProtected := true, subdEndpoint := new.subdEndpoint }

/-- the lease is not checked -/
def recordBootstrapHost (op : Operation) (r : BootstrapStepResult) : BootstrapCall := fun s =>
  if op.kind ≠ .createCluster then fails (.store .forbidden) s
  else if providerInstanceId r.providerHostId = false then fails (.store .invalid) s
  else if r.hostPrivateIp.isPrivate = false ∨ r.imageId = "" then fails (.store .invalid) s
  else match s.bootstraps.find op.id with
    | none => fails (.store .noRows) s
    | some _ =>
      let new := bootstrapHost op r s.db.clock
      match s.db.hosts.find new.id with
      | none => (s.put (.host new), .ok ())
      | some h =>
        if h.provider = new.provider ∧ h.providerId = new.providerId ∧ h.isProtected = true then
          (s.put (.host (Host.rerecorded h new)), .ok ())
        else if h.providerId = new.providerId then (s, .ok ())
        else fails .hostConflict s

def setDominatorRoute (op : Operation) (r : BootstrapStepResult) : BootstrapCall := fun s =>
  if op.kind ≠ .createCluster then fails (.store .forbidden) s
  else if r.dominatorEndpoint.accepted = false then fails (.store .invalid) s
  else if op.zoneId = "" ∨ r.dominatorIdentity.path ≠ some ("/dominator/" ++ op.zoneId) then fails (.store .invalid) s
  else match (heldBootstrap s op).filter fun x => x.1.kind = .createCluster && x.2.phase = .networkInstalling with
    | none => fails (.store .fenced) s
    | some (_, b) => match s.db.zoneDominators.find b.zoneId with
      | none => (s.put (.zoneDominator ⟨b.zoneId, r.dominatorEndpoint.text, r.dominatorIdentity.text⟩), .ok ())
      | some d =>
        if d.endpoint = r.dominatorEndpoint.text ∧ d.identity = r.dominatorIdentity.text then (s, .ok ())
        else fails (.store .fenced) s

/-- makes a completed nonterminal phase immediately claimable -/
def releaseBootstrapLease (op : Operation) : BootstrapCall := fun s =>
  if op.kind ≠ .createCluster then fails (.store .forbidden) s
  else match heldRow s.db op fun o => OperationState.active o.state with
    | none => fails (.store .fenced) s
    | some o => (s.put (.operation { o with state := .pending, lease := none, updatedAt := s.db.clock }), .ok ())

/-! ## CreateBootstrap -/

/-- `parameters = none` is a text that is not JSON -/
structure BootstrapRequest where
  kind : String
  requestId : String
  clusterId : String
  zoneId : String
  parameters : Option Json
deriving DecidableEq, Repr

/-- `strings.ToLower` as far as it can produce ASCII letters: besides the capitals, U+0130 and the Kelvin sign do -/
def lowerCase (key : String) : List Char :=
  key.toList.map fun c => if c = '\u0130' then 'i' else if c = '\u212a' then 'k' else c.toLower

/-- a member name that must not occur in an intent; references to secrets may -/
def forbiddenName (key : String) : Bool :=
  let name := lowerCase key
  ["password", "secret", "token", "credential", "private_key"].any fun word => name.tails.any word.toList.isPrefixOf

def referenceName (key : String) : Bool :=
  let name := lowerCase key
  "_arn".toList.isSuffixOf name || "_ref".toList.isSuffixOf name || "_reference".toList.isSuffixOf name

mutual

def safeValue : Json → Bool
  | .arr l => safeItems l
  | .obj l => safeMembers l
  | _ => true

def safeItems : List Json → Bool
  | [] => true
  | j :: l => safeValue j && safeItems l

def safeMembers : List (String × Json) → Bool
  | [] => true
  | (key, j) :: l => (referenceName key || (!forbiddenName key && safeValue j)) && safeMembers l

end

def safeBootstrapParameters : Option Json → Bool
  | some (.obj l) => safeMembers l
  | _ => false

/-- another bootstrap of the cluster is under way -/
def clusterBusy (i : BootstrapRequest) (s : Site) : Bool :=
  s.bootstraps.rows.any fun b => b.clusterId = i.clusterId && !b.phase.terminal &&
    (s.db.operations.find b.operationId).any fun o =>
      o.kind = .createCluster || (o.kind = .attachZone && o.zoneId = i.zoneId)

/-- the stored bootstrap of a request ID, with its operation -/
def requested (i : BootstrapRequest) (s : Site) : Option (Bootstrap × OperationRow) := do
  let b ← s.bootstraps.rows.find? fun b => b.requestId = i.requestId
  let o ← s.db.operations.find b.operationId
  some (b, o)

/-- up to the check for an active operation, under the lock of the cluster: the ID of a replay, or `none` to go on -/
def openBootstrap (i : BootstrapRequest) (s : Site) : Except BootstrapError (Option String) :=
  if i.kind = "attach_zone" then .error .attachmentUnavailable
  else if i.kind ≠ "create_cluster" ∨ i.requestId = "" ∨ i.clusterId = "" ∨ i.zoneId = "" ∨
      safeBootstrapParameters i.parameters = false then .error (.store .invalid)
  else match requested i s with
    | some (b, o) =>
      if o.kind = .createCluster ∧ b.clusterId = i.clusterId ∧ o.zoneId = i.zoneId ∧
          some o.parameters = i.parameters.map Parameters.document then .ok (some o.id)
      else .error (.store .replayMismatch)
    | none => if clusterBusy i s then .error (.store .conflict) else .ok none

/-- the cluster and the zone have been seeded and are not ready yet -/
def initializing (i : BootstrapRequest) (s : Site) : Bool :=
  (s.db.clusters.find i.clusterId).any (fun c => c.lifecycle = .initializing) &&
    (s.db.zones.find i.zoneId).any fun z => z.lifecycle = .initializing

def bootstrapOperation (i : BootstrapRequest) (u : Uuids) (now : ℕ) : OperationRow where
  id := u 0
  kind := .createCluster
  zoneId := i.zoneId
  groupId := none
  hostId := none
  capacityRequestId := none
  targetRevision := 0
  providerToken := u 1
  parameters := .document (i.parameters.getD .null)
  createdAt := now
  updatedAt := now

/-- the unique keys of operations and bootstraps: one active bootstrap per zone, one bootstrap per request ID -/
def bootstrapTaken (i : BootstrapRequest) (u : Uuids) (s : Site) : Bool :=
  (s.db.operations.find (u 0)).isSome || s.db.operations.rows.any (fun o => o.providerToken = u 1) ||
    (s.bootstraps.find (u 0)).isSome ||
    s.bootstraps.rows.any fun b => b.requestId = i.requestId || (b.zoneId = i.zoneId && !b.phase.terminal)

/-- from the decoded intent to the commit; `firstZone` reads first_zone from the parameters -/
def finishBootstrap (firstZone : Json → Option FirstZoneInput) (i : BootstrapRequest) (u : Uuids) :
    Site → Site × Except BootstrapError String := fun s =>
  match (i.parameters.bind firstZone).filter fun f => f.cluster.id = i.clusterId && f.zone.id = i.zoneId with
  | none => (s, .error (.store .invalid))
  | some f => match seedFirstZoneTx f false s with
    | .error e => (s, .error (.store e))
    | .ok s₁ =>
      if initializing i s₁ = false then (s, .error (.store .invalid))
      else if bootstrapTaken i u s₁ then (s, .error (.store .uniqueViolation))
      else ({ s₁.put (.operation (bootstrapOperation i u s₁.db.clock)) with
        bootstraps := s₁.bootstraps.put ⟨u 0, i.zoneId, i.clusterId, i.requestId, .requested⟩ }, .ok (u 0))

/-! ## The machine -/

/-- the functions of other packages that the store calls -/
structure Env where
  workerNodeName : String → String
  firstZone : Json → Option FirstZoneInput

def Env.externals (E : Env) : Externals := ⟨E.workerNodeName, validateScheduling⟩

structure World where
  site : Site
  /-- the copies of operations that claims handed to controllers -/
  held : List Operation
  /-- the `CreateBootstrap` transactions between their two steps, which hold the locks of their clusters -/
  opening : List BootstrapRequest

/-- what a controller of an operation calls -/
inductive ControllerCall where
  | setClusterDiscovery (r : BootstrapStepResult)
  | recordBootstrapHost (r : BootstrapStepResult)
  | setDominatorRoute (r : BootstrapStepResult)
  | bootstrapPhase (next : ZoneBootstrapPhase) (validated : Bool)
  | releaseBootstrapLease
deriving DecidableEq, Repr

def ControllerCall.run (op : Operation) : ControllerCall → BootstrapCall
  | .setClusterDiscovery r => Topology.setClusterDiscovery op r
  | .recordBootstrapHost r => Topology.recordBootstrapHost op r
  | .setDominatorRoute r => Topology.setDominatorRoute op r
  | .bootstrapPhase next validated => Topology.bootstrapPhase op next validated
  | .releaseBootstrapLease => Topology.releaseBootstrapLease op

inductive Act where
  /-- a creation of the catalog -/
  | request (r : Request)
  | seed (i : FirstZoneInput) (ready : Bool)
  /-- any call of the capacity store: claims, renewals, admissions, provisioning, removals, membership updates -/
  | call (c : Call) (ans : Operation → Bool)
  | controller (op : Operation) (c : ControllerCall)
  | open (i : BootstrapRequest)
  | finish (i : BootstrapRequest) (u : Uuids)
  /-- a crash or a lost connection ends the transaction -/
  | abort (i : BootstrapRequest)
  | tick (n : ℕ)

/-- the lifecycle of zones and clusters and the Dominator registry are written by the calls of this module, not by the
unrestricted updates that the capacity store alone would have to expect -/
def isTopology : Call → Bool
  | .topology _ => true
  | _ => false

/-- the operation a claim handed out -/
def Reply.claimed : Reply → List Operation
  | .operation op => [op]
  | _ => []

def step (E : Env) (w : World) : Act → World
  | .request r => { w with site := (r.run w.site).1 }
  | .seed i ready => { w with site := (seedFirstZone i ready w.site).1 }
  | .call c ans =>
    if isTopology c then w
    else match (code E.externals c).run ans w.site.db with
      | .ok (reply, d) => { w with site := { w.site with db := d }, held := Reply.claimed reply ++ w.held }
      | .error _ => w
  | .controller op c => if op ∈ w.held then { w with site := (c.run op w.site).1 } else w
  | .open i =>
    if w.opening.any fun j => j.clusterId = i.clusterId then w
    else match openBootstrap i w.site with
      | .ok none => { w with opening := i :: w.opening }
      | _ => w
  | .finish i u =>
    if i ∈ w.opening then
      { w with site := (finishBootstrap E.firstZone i u w.site).1, opening := w.opening.filter (· ≠ i) }
    else w
  | .abort i => { w with opening := w.opening.filter (· ≠ i) }
  | .tick n => { w with site := { w.site with db := w.site.db.tick n } }

def run (E : Env) (w : World) (acts : List Act) : World := acts.foldl (step E) w

/-- a database without topology; hosts that are not the store's may be there already -/
def empty (clock : ℕ) (hosts : Table Host.id) : Site :=
  ⟨⟨clock, .empty, .empty, .empty, .empty, .empty, .empty, hosts, .empty, .empty, .empty, .empty, .empty⟩, .empty, .empty,
    .empty, .empty⟩

def start (clock : ℕ) (hosts : Table Host.id) : World := ⟨empty clock hosts, [], []⟩

end Crane.Topology
