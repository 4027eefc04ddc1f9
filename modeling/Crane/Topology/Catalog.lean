/-
The topology catalog (`internal/capacity/catalog.go`, the topology tables of `schema.sql`): creation of zones, clusters,
pools, groups and memberships, and the seed of a first zone.

A creation is one INSERT ... ON CONFLICT DO UPDATE, judged by the number of rows it affected after it has committed
(`immutableInsert`). A zone's statement also fires `crane_zone_region`, BEFORE the conflict on the zone's ID is decided,
so it can store a region for a zone that is then refused. Apart from that, a refused creation leaves every table as it
was, and the repetition of an accepted one is accepted and changes nothing.

An UPDATE that stores the values it found is not a write here: rows are equal iff their columns are. The constraints
CHECK, UNIQUE and REFERENCES of the tables are evaluated where PostgreSQL does, with the errors `topologyError` makes
of them.
-/
import Crane.Capacity.Groups
import Crane.Validation

namespace Crane.Topology

open Capacity

/-! ## Tables -/

/-- topology_regions: the canonical name of a provider's region -/
structure Region where
  provider : String
  accountId : String
  region : String
  kubernetesRegion : String
deriving DecidableEq, Repr

def Region.key (r : Region) : String × String × String := (r.provider, r.accountId, r.region)

/-- the version columns of a cluster -/
structure ClusterSoftware where
  clusterId : String
  kubeadmVersion : String
  kubeletVersion : String
  containerRuntime : String
  cni : String
deriving DecidableEq, Repr

structure NodeGroupNaming where
  provider : String
  developmentStage : String
  region : String
  az : String
  group : String
deriving DecidableEq, Repr

/-- the naming columns of a node group -/
structure GroupNaming where
  groupId : String
  naming : NodeGroupNaming
deriving DecidableEq, Repr

inductive ZoneBootstrapPhase where
  | requested | infrastructureProvisioning | controlPlaneInitializing | networkInstalling | dominatorInstalling
  | validating | ready | failed
deriving DecidableEq, Repr, Inhabited

/-- zone_bootstrap_operations -/
structure Bootstrap where
  operationId : String
  zoneId : String
  clusterId : String
  requestId : String
  phase : ZoneBootstrapPhase := .requested
deriving DecidableEq, Repr

/-- the whole database: the capacity tables and what the topology adds to them -/
structure Site where
  db : DB
  regions : Table Region.key
  software : Table ClusterSoftware.clusterId
  names : Table GroupNaming.groupId
  bootstraps : Table Bootstrap.operationId

def Site.put (s : Site) (r : Row) : Site := { s with db := s.db.put r }

/-! ## Requests -/

structure ZoneInput where
  id : String
  provider : String
  accountId : String
  region : String
  providerZoneId : String
  kubernetesRegion : String := ""
  kubernetesZone : String := ""
deriving DecidableEq, Repr

structure ClusterInput where
  id : String
  apiServerEndpoint : String
  caCertHash : String
  kubeadmVersion : String
  kubeletVersion : String
  containerRuntime : String
  cni : String
deriving DecidableEq, Repr

structure NodePoolInput where
  id : String
  limits : Resources
deriving DecidableEq, Repr

structure ClusterZoneInput where
  clusterId : String
  zoneId : String
  lifecycleState : String := ""
  accessState : String := ""
deriving DecidableEq, Repr

/-- `launchParameters = none` is a text that is not JSON -/
structure NodeGroupInput where
  naming : NodeGroupNaming
  id : String := ""
  clusterId : String
  nodePoolId : String
  zoneId : String
  capacityClass : String
  providerZoneId : String
  minNodes : ℤ
  maxNodes : ℤ
  templateRevision : String
  vcpu : ℤ
  memoryMib : ℤ
  launchParameters : Option Json
  scheduling : SchedulingTemplate := {}
deriving DecidableEq, Repr

structure FirstZoneInput where
  zone : ZoneInput
  cluster : ClusterInput
  membership : ClusterZoneInput
  pool : NodePoolInput
  group : NodeGroupInput
deriving DecidableEq, Repr

/-! ## Statements -/

/-- a statement: an error, which undoes it, or the state it leaves and the number of rows it affected -/
abbrev Stmt := Site → Except Err (Site × ℕ)

/-- a request in its own transaction: the committed state and the answer -/
abbrev Write := Site → Site × Except Err Unit

/-- accepts an exact retry, but never changes an existing identity -/
def immutableInsert (q : Stmt) : Write := fun s =>
  match q s with
  | .error e => (s, .error e)
  | .ok (s', n) => (s', if n = 0 then .error .conflict else .ok ())

def refuse (e : Err) : Write := fun s => (s, .error e)

/-- the trigger `crane_zone_region`, BEFORE INSERT OR UPDATE ON zones -/
def craneZoneRegion (z : Zone) (s : Site) : Except Err Site :=
  match s.regions.find (z.provider, z.accountId, z.region) with
  | some r => if r.kubernetesRegion = z.kubernetesRegion then .ok s else .error .conflict
  | none =>
    if s.regions.rows.any fun r => r.kubernetesRegion = z.kubernetesRegion then .error .conflict
    else .ok { s with regions := s.regions.put ⟨z.provider, z.accountId, z.region, z.kubernetesRegion⟩ }

/-- UNIQUE(kubernetes_zone) and UNIQUE(provider, account_id, region, provider_zone_id) -/
def zoneTaken (z : Zone) (s : Site) : Bool :=
  s.db.zones.rows.any fun o => o.kubernetesZone = z.kubernetesZone ||
    (o.provider = z.provider && o.accountId = z.accountId && o.region = z.region && o.providerZoneId = z.providerZoneId)

def insertZone (z : Zone) : Stmt := fun s => do
  -- the trigger fires for the proposed row, whether or not its ID turns out to be taken
  let s ← craneZoneRegion z s
  match s.db.zones.find z.id with
  | some old =>
    if old.place = z.place then
      let s ← craneZoneRegion old s
      return (s, 1)
    else return (s, 0)
  | none => if zoneTaken z s then .error .conflict else return (s.put (.zone z), 1)

/-- with the Kubernetes names a request leaves out -/
def ZoneInput.row (z : ZoneInput) (lifecycle : Lifecycle) : Zone where
  id := z.id
  provider := z.provider
  accountId := z.accountId
  region := z.region
  providerZoneId := z.providerZoneId
  kubernetesRegion := if z.kubernetesRegion = "" then z.region else z.kubernetesRegion
  kubernetesZone := if z.kubernetesZone = "" then z.providerZoneId else z.kubernetesZone
  enabled := true
  lifecycle := lifecycle

def ZoneInput.valid (z : ZoneInput) : Bool :=
  z.id ≠ "" && z.provider ≠ "" && z.accountId ≠ "" && z.region ≠ "" && z.providerZoneId ≠ "" &&
    isValidLabelValue (z.row .ready).kubernetesRegion && isValidLabelValue (z.row .ready).kubernetesZone

def createZone (z : ZoneInput) (lifecycle : Lifecycle) : Write :=
  if z.valid then immutableInsert (insertZone (z.row lifecycle)) else refuse .invalid

def ClusterInput.software (c : ClusterInput) : ClusterSoftware :=
  ⟨c.id, c.kubeadmVersion, c.kubeletVersion, c.containerRuntime, c.cni⟩

/-- a stored discovery value that a request accepts; a seed may leave it out -/
def discovered (seed : Bool) (stored given : String) : Bool := stored = given || (seed && given = "")

def insertCluster (c : ClusterInput) (lifecycle : Lifecycle) (seed : Bool) : Stmt := fun s =>
  match s.db.clusters.find c.id with
  | some old =>
    .ok (s, if s.software.find c.id = some c.software && discovered seed old.apiServerEndpoint c.apiServerEndpoint &&
      discovered seed old.caCertHash c.caCertHash then 1 else 0)
  | none =>
    .ok ({ s.put (.cluster ⟨c.id, c.apiServerEndpoint, c.caCertHash, lifecycle⟩) with
      software := s.software.put c.software }, 1)

def ClusterInput.valid (c : ClusterInput) : Bool :=
  c.id ≠ "" && c.kubeadmVersion ≠ "" && c.kubeletVersion ≠ "" && c.containerRuntime ≠ "" && c.cni = "cilium"

def createCluster (c : ClusterInput) (lifecycle : Lifecycle) (seed : Bool) : Write :=
  if c.valid then immutableInsert (insertCluster c lifecycle seed) else refuse .invalid

/-- the row, if it passes the CHECKs -/
def NodePoolInput.row (p : NodePoolInput) : Option NodePool :=
  if h : NonNeg64 p.limits.vcpu ∧ NonNeg64 p.limits.memoryMib ∧ NonNeg64 p.limits.nodes then
    some ⟨p.id, true, p.limits.vcpu, p.limits.memoryMib, p.limits.nodes, h.1, h.2.1, h.2.2⟩
  else none

def insertPool (p : NodePoolInput) : Stmt := fun s =>
  match p.row with
  | none => .error .invalid
  | some row => match s.db.nodePools.find p.id with
    | some old => .ok (s, if old.limits = row.limits then 1 else 0)
    | none => .ok (s.put (.nodePool row), 1)

def NodePoolInput.valid (p : NodePoolInput) : Bool :=
  p.id ≠ "" && 0 ≤ p.limits.vcpu && 0 ≤ p.limits.memoryMib && 0 ≤ p.limits.nodes

def createPool (p : NodePoolInput) : Write := if p.valid then immutableInsert (insertPool p) else refuse .invalid

/-- `FormatNodeGroupID`: explicit inputs, never parses an ID for policy -/
def formatNodeGroupId (n : NodeGroupNaming) : Option String :=
  if [n.provider, n.developmentStage, n.region, n.az, n.group].all fun part => dnsLabel part.toList then
    some ("-".intercalate [n.provider, n.developmentStage, n.region, n.az, n.group])
  else none

/-- `NormalizeID` -/
def NodeGroupInput.normalizeId (g : NodeGroupInput) : Option NodeGroupInput :=
  (formatNodeGroupId g.naming).bind fun id => if g.id = "" ∨ g.id = id then some { g with id := id } else none

def NodeGroupInput.valid (g : NodeGroupInput) : Bool :=
  g.clusterId ≠ "" && g.zoneId ≠ "" && g.nodePoolId ≠ "" && g.capacityClass ≠ "" && g.templateRevision ≠ "" &&
    0 ≤ g.minNodes && g.minNodes ≤ g.maxNodes && 0 < g.vcpu && 0 < g.memoryMib

/-- a new group, if it passes the CHECKs; its target starts at 0, which must be in its bounds -/
def NodeGroupInput.row (g : NodeGroupInput) (launch : Json) : Option NodeGroup :=
  if h : 0 ≤ g.minNodes ∧ (g.minNodes ≤ 0 ∧ 0 ≤ g.maxNodes) ∧ g.maxNodes ≤ maxInt64 ∧ Pos64 g.vcpu ∧ Pos64 g.memoryMib then
    some {
      id := g.id, clusterId := g.clusterId, zoneId := g.zoneId, nodePoolId := g.nodePoolId
      capacityClass := g.capacityClass, providerZoneId := g.providerZoneId, targetNodes := 0, targetRevision := 0
      minNodes := g.minNodes, maxNodes := g.maxNodes, templateRevision := g.templateRevision, lifecycle := .active
      vcpu := g.vcpu, memoryMib := g.memoryMib, launchParameters := launch, scheduling := g.scheduling
      check_revision := nonNeg64_zero, check_min := h.1, check_target := h.2.1, check_max := h.2.2.1
      check_vcpu := h.2.2.2.1, check_memory := h.2.2.2.2 }
  else none

/-- the FOREIGN KEYs of a group, to memberships, zones and pools -/
def groupReferences (g : NodeGroupInput) (s : Site) : Bool :=
  (s.db.clusterZones.find (g.clusterId, g.zoneId)).isSome && (s.db.nodePools.find g.nodePoolId).isSome &&
    (s.db.zones.find g.zoneId).any fun z => z.providerZoneId = g.providerZoneId && z.provider = g.naming.provider &&
      z.region = g.naming.region

/-- scheduling metadata that was never given -/
def unset (t : SchedulingTemplate) : Bool := t.instanceType = "" && t.zone = ""

/-- the stored group and its naming repeat the request, whose row is `row`, in all but the scheduling -/
def sameGroup (g : NodeGroupInput) (row old : NodeGroup) (s : Site) : Bool :=
  old.fixed = row.fixed && old.capacityClass = row.capacityClass && old.providerZoneId = row.providerZoneId &&
    old.templateRevision = row.templateRevision && old.launchParameters = row.launchParameters &&
    s.names.find g.id = some (GroupNaming.mk g.id g.naming)

/-- ON CONFLICT fills scheduling that is unset and keeps any other -/
def fillScheduling (old : NodeGroup) (t : SchedulingTemplate) (s : Site) : Site :=
  if old.scheduling = t then s else s.put (.nodeGroup { old with scheduling := t })

def insertGroup (g : NodeGroupInput) (launch : Json) : Stmt := fun s =>
  match g.row launch with
  | none => .error .invalid
  | some row => match s.db.nodeGroups.find g.id with
    | some old =>
      if sameGroup g row old s && (old.scheduling = g.scheduling || unset old.scheduling) then
        .ok (fillScheduling old g.scheduling s, 1)
      else .ok (s, 0)
    | none =>
      if groupReferences g s then .ok ({ s.put (.nodeGroup row) with names := s.names.put ⟨g.id, g.naming⟩ }, 1)
      else .error .invalid

/-- any scheduling metadata -/
def given (t : SchedulingTemplate) : Bool :=
  t.instanceType ≠ "" || t.region ≠ "" || t.zone ≠ "" || t.architecture ≠ "" || t.labels ≠ [] || t.taints ≠ []

/-- scheduling metadata, where there is any, is valid and names the zone -/
def schedulingFits (g : NodeGroupInput) (s : Site) : Bool :=
  !given g.scheduling || (validateScheduling g.scheduling g.nodePoolId &&
    (s.db.zones.find g.zoneId).any fun z => g.scheduling.region = z.kubernetesRegion &&
      g.scheduling.zone = z.kubernetesZone)

def createGroup (input : NodeGroupInput) : Write := fun s =>
  match input.normalizeId, input.launchParameters with
  | some g, some launch =>
    if g.valid && schedulingFits g s then immutableInsert (insertGroup g launch) s else refuse .invalid s
  | _, _ => refuse .invalid s

/-- the states a membership names, by default requested and pending -/
def lifecycleOf : String → Option Lifecycle
  | "" => some .requested
  | "requested" => some .requested
  | "initializing" => some .initializing
  | "ready" => some .ready
  | "failed" => some .failed
  | _ => none

def accessOf : String → Option AccessState
  | "" => some .pending
  | "pending" => some .pending
  | "approved" => some .approved
  | "revoked" => some .revoked
  | _ => none

def normalizeMembership (m : ClusterZoneInput) : Option ClusterZone := do
  let lifecycle ← lifecycleOf m.lifecycleState
  let access ← accessOf m.accessState
  if m.clusterId = "" ∨ m.zoneId = "" then none else some ⟨m.clusterId, m.zoneId, lifecycle, access⟩

def insertMembership (m : ClusterZone) (seed : Bool) : Stmt := fun s =>
  match s.db.clusterZones.find m.key with
  | some old => .ok (s, if seed || (old.lifecycle = m.lifecycle && old.access = m.access) then 1 else 0)
  | none =>
    if (s.db.clusters.find m.clusterId).isSome && (s.db.zones.find m.zoneId).isSome then
      .ok (s.put (.clusterZone m), 1)
    else .error .invalid

def createMembership (input : ClusterZoneInput) (seed : Bool) : Write :=
  match normalizeMembership input with
  | some m => immutableInsert (insertMembership m seed)
  | none => refuse .invalid

/-! ## The store's requests -/

inductive Request where
  | zone (z : ZoneInput)
  | cluster (c : ClusterInput)
  | nodePool (p : NodePoolInput)
  | nodeGroup (g : NodeGroupInput)
  | clusterZone (m : ClusterZoneInput)
deriving DecidableEq, Repr

/-- `CreateZone`, `CreateCluster`, `CreateNodePool`, `CreateNodeGroup` and `CreateClusterZone` -/
def Request.run : Request → Write
  | .zone z => createZone z .ready
  | .cluster c => createCluster c .ready false
  | .nodePool p => createPool p
  | .nodeGroup g => createGroup g
  | .clusterZone m => createMembership m false

/-! ## Refused and repeated statements -/

/-- a statement that affects no row has changed none, and one that affects a row does so again, without a change -/
def Immutable (q : Stmt) (s : Site) : Prop :=
  ∀ s' n, q s = .ok (s', n) → (n = 0 → s' = s) ∧ (n ≠ 0 → ∃ m, q s' = .ok (s', m + 1))

/-- a request that is refused without a trace, and that may be repeated once it was accepted -/
structure Clean (w : Write) (s : Site) : Prop where
  refused : ∀ e, (w s).2 = .error e → (w s).1 = s
  repeated : (w s).2 = .ok () → w (w s).1 = ((w s).1, .ok ())

theorem refuse_clean (e : Err) (s : Site) : Clean (refuse e) s := ⟨fun _ _ => rfl, fun h => by simp [refuse] at h⟩

theorem Immutable.clean {q : Stmt} {s : Site} (h : Immutable q s) : Clean (immutableInsert q) s := by
  unfold immutableInsert
  cases hq : q s with
  | error e => exact ⟨fun _ _ => by rw [hq], fun hok => by simp [hq] at hok⟩
  | ok r =>
    obtain ⟨s', n⟩ := r
    obtain ⟨hzero, hsome⟩ := h s' n hq
    by_cases hn : n = 0
    · exact ⟨fun _ _ => by simpa [hq] using hzero hn, fun hok => by simp [hq, hn] at hok⟩
    · obtain ⟨m, hm⟩ := hsome hn
      exact ⟨fun e he => by simp [hq, hn] at he, fun _ => by simp [hq, hm]⟩

/-- the region of a zone, once it is stored, passes the trigger -/
theorem craneZoneRegion_self {z : Zone} {s s' : Site} (h : craneZoneRegion z s = .ok s') :
    craneZoneRegion z s' = .ok s' := by
  unfold craneZoneRegion at h
  cases hr : s.regions.find (z.provider, z.accountId, z.region) with
  | some r =>
    rw [hr] at h
    dsimp only at h
    split_ifs at h with he
    obtain rfl := Except.ok.inj h
    simp [craneZoneRegion, hr, he]
  | none =>
    rw [hr] at h
    dsimp only at h
    split_ifs at h with ht
    obtain rfl := Except.ok.inj h
    have hfind := Table.find_put_self s.regions ⟨z.provider, z.accountId, z.region, z.kubernetesRegion⟩
    simp only [Region.key] at hfind
    simp [craneZoneRegion, hfind]

/-- the trigger writes no other table -/
theorem craneZoneRegion_db {z : Zone} {s s' : Site} (h : craneZoneRegion z s = .ok s') :
    s' = { s with regions := s'.regions } := by
  unfold craneZoneRegion at h
  split at h
  · split_ifs at h
    rw [← Except.ok.inj h]
  · split_ifs at h
    rw [← Except.ok.inj h]

/-- the trigger reads only the place of a zone -/
theorem craneZoneRegion_place {z old : Zone} (h : old.place = z.place) (s : Site) :
    craneZoneRegion old s = craneZoneRegion z s := by
  simp only [Zone.place, Prod.mk.injEq] at h
  obtain ⟨hp, ha, hr, -, hk, -⟩ := h
  simp [craneZoneRegion, hp, ha, hr, hk]

/-- the region of the zone is known, if its ID belongs to another zone -/
def knownRegion (z : Zone) (s : Site) : Bool :=
  (s.db.zones.find z.id).all fun old =>
    old.place = z.place || (s.regions.find (z.provider, z.accountId, z.region)).isSome

theorem craneZoneRegion_known {z : Zone} {s s' : Site} (h : craneZoneRegion z s = .ok s')
    (hk : (s.regions.find (z.provider, z.accountId, z.region)).isSome = true) : s' = s := by
  obtain ⟨r, hr⟩ := Option.isSome_iff_exists.mp hk
  unfold craneZoneRegion at h
  rw [hr] at h
  dsimp only at h
  split_ifs at h
  exact (Except.ok.inj h).symm

/-- what an accepted statement for a zone has done -/
theorem insertZone_ok {z : Zone} {s s' : Site} {n : ℕ} (h : insertZone z s = .ok (s', n)) :
    ∃ s₁, craneZoneRegion z s = .ok s₁ ∧
      ((∃ old, s.db.zones.find z.id = some old ∧ s' = s₁ ∧ n = if old.place = z.place then 1 else 0) ∨
        (s.db.zones.find z.id = none ∧ zoneTaken z s = false ∧ s' = s₁.put (.zone z) ∧ n = 1)) := by
  unfold insertZone at h
  cases hr : craneZoneRegion z s with
  | error e => simp [hr, Bind.bind, Except.bind] at h
  | ok s₁ =>
    refine ⟨s₁, rfl, ?_⟩
    have hdb : s₁.db = s.db := by rw [craneZoneRegion_db hr]
    simp only [hr, Bind.bind, Except.bind, hdb] at h
    cases hf : s.db.zones.find z.id with
    | some old =>
      simp only [hf] at h
      refine .inl ⟨old, rfl, ?_⟩
      by_cases hp : old.place = z.place
      · have hself := (craneZoneRegion_place hp s₁).trans (craneZoneRegion_self hr)
        simp only [hp, if_true, hself, Pure.pure, Except.pure, Except.ok.injEq, Prod.mk.injEq] at h
        exact ⟨h.1.symm, by simp [hp, ← h.2]⟩
      · simp only [hp, if_false, Pure.pure, Except.pure, Except.ok.injEq, Prod.mk.injEq] at h
        exact ⟨h.1.symm, by simp [hp, ← h.2]⟩
    | none =>
      simp only [hf] at h
      split_ifs at h with ht
      simp only [Pure.pure, Except.pure, Except.ok.injEq, Prod.mk.injEq] at h
      refine .inr ⟨rfl, ?_, h.1.symm, h.2.symm⟩
      simpa [zoneTaken, hdb] using ht

/-- a stored zone with its region is accepted as it is -/
theorem insertZone_repeat {z old : Zone} {s : Site} (hr : craneZoneRegion z s = .ok s)
    (hf : s.db.zones.find z.id = some old) (hp : old.place = z.place) : insertZone z s = .ok (s, 1) := by
  have hself := (craneZoneRegion_place hp s).trans hr
  simp [insertZone, hr, Bind.bind, Except.bind, hf, hp, hself, Pure.pure, Except.pure]

theorem craneZoneRegion_put (z : Zone) (r : Row) (s : Site) (h : craneZoneRegion z s = .ok s) :
    craneZoneRegion z (s.put r) = .ok (s.put r) := by
  unfold craneZoneRegion at h ⊢
  cases hr : s.regions.find (z.provider, z.accountId, z.region) with
  | some r' =>
    rw [hr] at h
    dsimp only at h
    split_ifs at h with he
    simp [Site.put, hr, he]
  | none =>
    rw [hr] at h
    dsimp only at h
    split_ifs at h
    have hreg : s.regions.put ⟨z.provider, z.accountId, z.region, z.kubernetesRegion⟩ = s.regions :=
      congrArg Site.regions (Except.ok.inj h)
    have hfind := Table.find_put_self s.regions ⟨z.provider, z.accountId, z.region, z.kubernetesRegion⟩
    rw [hreg] at hfind
    simp [Region.key, hr] at hfind

theorem insertZone_immutable {z : Zone} {s : Site} (hk : knownRegion z s = true) : Immutable (insertZone z) s := by
  intro s' n h
  obtain ⟨s₁, hr, ⟨old, hf, rfl, rfl⟩ | ⟨hf, -, rfl, rfl⟩⟩ := insertZone_ok h
  · have hdb : s'.db = s.db := by rw [craneZoneRegion_db hr]
    by_cases hp : old.place = z.place
    · refine ⟨fun hn => by simp [hp] at hn, fun _ => ⟨0, ?_⟩⟩
      exact insertZone_repeat (craneZoneRegion_self hr) (hdb ▸ hf) hp
    · refine ⟨fun _ => craneZoneRegion_known hr ?_, fun hn => absurd hn (by simp [hp])⟩
      simpa [knownRegion, hf, hp] using hk
  · refine ⟨fun hn => by simp at hn, fun _ => ⟨0, ?_⟩⟩
    refine insertZone_repeat (craneZoneRegion_put z _ s₁ (craneZoneRegion_self hr)) ?_ rfl
    exact Table.find_put_self _ z

theorem insertCluster_immutable (c : ClusterInput) (l : Lifecycle) (seed : Bool) (s : Site) :
    Immutable (insertCluster c l seed) s := by
  intro s' n h
  unfold insertCluster at h
  split at h
  · rename_i old hf
    simp only [Except.ok.injEq, Prod.mk.injEq] at h
    obtain ⟨rfl, rfl⟩ := h
    refine ⟨fun _ => rfl, fun hn => ⟨0, ?_⟩⟩
    split_ifs at hn with hsame
    · simp only [insertCluster, hf, hsame, if_true]
    · exact absurd rfl hn
  · rename_i hf
    simp only [Except.ok.injEq, Prod.mk.injEq] at h
    obtain ⟨rfl, rfl⟩ := h
    refine ⟨fun hn => by simp at hn, fun _ => ⟨0, ?_⟩⟩
    have hnew := Table.find_put_self s.db.clusters ⟨c.id, c.apiServerEndpoint, c.caCertHash, l⟩
    have hsoft := Table.find_put_self s.software c.software
    simp only [ClusterInput.software] at hnew hsoft
    simp [insertCluster, Site.put, DB.put, hnew, hsoft, discovered, ClusterInput.software]

theorem insertPool_immutable (p : NodePoolInput) (s : Site) : Immutable (insertPool p) s := by
  intro s' n h
  unfold insertPool at h
  cases hrow : p.row with
  | none => simp [hrow] at h
  | some row =>
    have hid : row.id = p.id := by
      unfold NodePoolInput.row at hrow
      split_ifs at hrow
      rw [← Option.some.inj hrow]
    simp only [hrow] at h
    split at h
    · rename_i old hf
      simp only [Except.ok.injEq, Prod.mk.injEq] at h
      obtain ⟨rfl, rfl⟩ := h
      refine ⟨fun _ => rfl, fun hn => ⟨0, ?_⟩⟩
      split_ifs at hn with hsame
      · simp only [insertPool, hrow, hf, hsame, if_true]
      · exact absurd rfl hn
    · simp only [Except.ok.injEq, Prod.mk.injEq] at h
      obtain ⟨rfl, rfl⟩ := h
      refine ⟨fun hn => by simp at hn, fun _ => ⟨0, ?_⟩⟩
      have hnew := Table.find_put_self s.db.nodePools row
      rw [hid] at hnew
      simp [insertPool, hrow, Site.put, DB.put, hnew]

theorem insertMembership_immutable (m : ClusterZone) (seed : Bool) (s : Site) : Immutable (insertMembership m seed) s := by
  intro s' n h
  unfold insertMembership at h
  split at h
  · rename_i old hf
    simp only [Except.ok.injEq, Prod.mk.injEq] at h
    obtain ⟨rfl, rfl⟩ := h
    refine ⟨fun _ => rfl, fun hn => ⟨0, ?_⟩⟩
    split_ifs at hn with hsame
    · simp only [insertMembership, hf, hsame, if_true]
    · exact absurd rfl hn
  · split_ifs at h
    simp only [Except.ok.injEq, Prod.mk.injEq] at h
    obtain ⟨rfl, rfl⟩ := h
    refine ⟨fun hn => by simp at hn, fun _ => ⟨0, ?_⟩⟩
    have hnew := Table.find_put_self s.db.clusterZones m
    simp [insertMembership, Site.put, DB.put, hnew]

/-- the group after its scheduling was filled in -/
theorem fillScheduling_find {old : NodeGroup} {t : SchedulingTemplate} {s : Site} {i : String}
    (h : s.db.nodeGroups.find i = some old) :
    (fillScheduling old t s).db.nodeGroups.find i = some { old with scheduling := t } := by
  unfold fillScheduling
  split_ifs with ht
  · rw [h, ← ht]
  · show (s.db.nodeGroups.put { old with scheduling := t }).find i = _
    rw [Table.find_put, if_pos (Table.key_of_find h : old.id = i)]

theorem fillScheduling_names (old : NodeGroup) (t : SchedulingTemplate) (s : Site) :
    (fillScheduling old t s).names = s.names := by
  unfold fillScheduling
  split_ifs <;> rfl

theorem NodeGroupInput.row_id {g : NodeGroupInput} {launch : Json} {row : NodeGroup} (h : g.row launch = some row) :
    row.id = g.id ∧ row.scheduling = g.scheduling := by
  unfold NodeGroupInput.row at h
  split_ifs at h
  rw [← Option.some.inj h]
  exact ⟨rfl, rfl⟩

/-- a stored group that repeats the request is accepted as it is -/
theorem insertGroup_repeat {g : NodeGroupInput} {launch : Json} {row old : NodeGroup} {s : Site}
    (hrow : g.row launch = some row) (hf : s.db.nodeGroups.find g.id = some old) (hsame : sameGroup g row old s = true)
    (ht : old.scheduling = g.scheduling) : insertGroup g launch s = .ok (s, 1) := by
  simp [insertGroup, hrow, hf, hsame, ht, fillScheduling]

/-- what an accepted statement for a group has done -/
theorem insertGroup_ok {g : NodeGroupInput} {launch : Json} {s s' : Site} {n : ℕ}
    (h : insertGroup g launch s = .ok (s', n)) : ∃ row, g.row launch = some row ∧
      ((∃ old, s.db.nodeGroups.find g.id = some old ∧ sameGroup g row old s = true ∧
          (old.scheduling = g.scheduling ∨ unset old.scheduling = true) ∧
          s' = fillScheduling old g.scheduling s ∧ n = 1) ∨
        (s.db.nodeGroups.find g.id ≠ none ∧ s' = s ∧ n = 0) ∨
        (s.db.nodeGroups.find g.id = none ∧ groupReferences g s = true ∧
          s' = { s.put (.nodeGroup row) with names := s.names.put ⟨g.id, g.naming⟩ } ∧ n = 1)) := by
  unfold insertGroup at h
  cases hrow : g.row launch with
  | none => simp [hrow] at h
  | some row =>
    refine ⟨row, rfl, ?_⟩
    simp only [hrow] at h
    split at h
    · rename_i old hf
      split_ifs at h with hc
      · simp only [Except.ok.injEq, Prod.mk.injEq] at h
        simp only [Bool.and_eq_true, Bool.or_eq_true, decide_eq_true_eq] at hc
        exact .inl ⟨old, hf, hc.1, hc.2, h.1.symm, h.2.symm⟩
      · simp only [Except.ok.injEq, Prod.mk.injEq] at h
        exact .inr (.inl ⟨by simp [hf], h.1.symm, h.2.symm⟩)
    · rename_i hf
      split_ifs at h with hc
      simp only [Except.ok.injEq, Prod.mk.injEq] at h
      exact .inr (.inr ⟨hf, hc, h.1.symm, h.2.symm⟩)

/-- what an accepted request for a group leaves stored -/
theorem insertGroup_stored {g : NodeGroupInput} {launch : Json} {s s' : Site} {n : ℕ}
    (h : insertGroup g launch s = .ok (s', n)) (hn : n ≠ 0) : ∃ row old, g.row launch = some row ∧
      s'.db.nodeGroups.find g.id = some old ∧ sameGroup g row old s' = true ∧ old.scheduling = g.scheduling := by
  obtain ⟨row, hrow, ⟨old, hf, hsame, -, rfl, -⟩ | ⟨-, -, rfl⟩ | ⟨-, -, rfl, -⟩⟩ := insertGroup_ok h
  · refine ⟨row, _, hrow, fillScheduling_find hf, ?_, rfl⟩
    have hnames := fillScheduling_names old g.scheduling s
    show sameGroup g row old { s with names := (fillScheduling old g.scheduling s).names } = true
    rw [hnames]
    exact hsame
  · exact absurd rfl hn
  · obtain ⟨hid, ht⟩ := NodeGroupInput.row_id hrow
    have hnew := Table.find_put_self s.db.nodeGroups row
    have hname := Table.find_put_self s.names ⟨g.id, g.naming⟩
    rw [hid] at hnew
    exact ⟨row, row, hrow, hnew, by simp [sameGroup, hname], ht⟩

theorem insertGroup_immutable (g : NodeGroupInput) (launch : Json) (s : Site) : Immutable (insertGroup g launch) s := by
  intro s' n h
  refine ⟨fun hn => ?_, fun hn => ?_⟩
  · obtain ⟨row, -, ⟨-, -, -, -, -, rfl⟩ | ⟨-, rfl, -⟩ | ⟨-, -, -, rfl⟩⟩ := insertGroup_ok h
    · exact absurd hn (by simp)
    · rfl
    · exact absurd hn (by simp)
  · obtain ⟨row, old, hrow, hf, hsame, ht⟩ := insertGroup_stored h hn
    exact ⟨0, insertGroup_repeat hrow hf hsame ht⟩

/-- a statement for a group writes no zone -/
theorem insertGroup_zones {g : NodeGroupInput} {launch : Json} {s s' : Site} {n : ℕ}
    (h : insertGroup g launch s = .ok (s', n)) : s'.db.zones = s.db.zones := by
  obtain ⟨row, -, ⟨old, -, -, -, rfl, -⟩ | ⟨-, rfl, -⟩ | ⟨-, -, rfl, -⟩⟩ := insertGroup_ok h
  · unfold fillScheduling
    split_ifs <;> rfl
  · rfl
  · rfl

/-! ## Requests without a trace -/

theorem createZone_clean {z : ZoneInput} {l : Lifecycle} {s : Site} (h : knownRegion (z.row l) s = true) :
    Clean (createZone z l) s := by
  unfold createZone
  split_ifs
  · exact (insertZone_immutable h).clean
  · exact refuse_clean _ _

theorem createCluster_clean (c : ClusterInput) (l : Lifecycle) (seed : Bool) (s : Site) :
    Clean (createCluster c l seed) s := by
  unfold createCluster
  split_ifs
  · exact (insertCluster_immutable c l seed s).clean
  · exact refuse_clean _ _

theorem createPool_clean (p : NodePoolInput) (s : Site) : Clean (createPool p) s := by
  unfold createPool
  split_ifs
  · exact (insertPool_immutable p s).clean
  · exact refuse_clean _ _

theorem createMembership_clean (m : ClusterZoneInput) (seed : Bool) (s : Site) : Clean (createMembership m seed) s := by
  unfold createMembership
  cases normalizeMembership m with
  | none => exact refuse_clean _ _
  | some m => exact (insertMembership_immutable m seed s).clean

theorem immutableInsert_ok {q : Stmt} {s s' : Site} (h : immutableInsert q s = (s', .ok ())) :
    ∃ n, q s = .ok (s', n) ∧ n ≠ 0 := by
  unfold immutableInsert at h
  cases hq : q s with
  | error e => simp [hq] at h
  | ok r =>
    simp only [hq, Prod.mk.injEq, ite_eq_right_iff, reduceCtorEq, imp_false] at h
    exact ⟨r.2, by rw [← h.1], h.2⟩

/-- a well-formed request for a group, with the texts its statement stores -/
theorem createGroup_eq {input g : NodeGroupInput} {launch : Json} (hg : input.normalizeId = some g)
    (hl : input.launchParameters = some launch) (s : Site) : createGroup input s =
      if g.valid && schedulingFits g s then immutableInsert (insertGroup g launch) s else refuse .invalid s := by
  unfold createGroup
  rw [hg, hl]

theorem createGroup_cases (input : NodeGroupInput) (s : Site) : createGroup input s = refuse .invalid s ∨
    ∃ g launch, input.normalizeId = some g ∧ input.launchParameters = some launch ∧ g.valid = true ∧
      schedulingFits g s = true ∧ createGroup input s = immutableInsert (insertGroup g launch) s := by
  cases hg : input.normalizeId with
  | none => exact .inl (by simp [createGroup, hg])
  | some g =>
    cases hl : input.launchParameters with
    | none => exact .inl (by simp [createGroup, hg, hl])
    | some launch =>
      rw [createGroup_eq hg hl]
      split_ifs with hc
      · simp only [Bool.and_eq_true] at hc
        exact .inr ⟨g, launch, rfl, rfl, hc.1, hc.2, rfl⟩
      · exact .inl rfl

/-- the accepted requests for a group -/
theorem createGroup_ok {input : NodeGroupInput} {s s' : Site} (h : createGroup input s = (s', .ok ())) :
    ∃ g launch n, input.normalizeId = some g ∧ input.launchParameters = some launch ∧ g.valid = true ∧
      schedulingFits g s = true ∧ insertGroup g launch s = .ok (s', n) ∧ n ≠ 0 := by
  rcases createGroup_cases input s with hr | ⟨g, launch, hg, hl, hv, hfit, he⟩
  · simp [hr, refuse] at h
  · obtain ⟨n, hq, hn⟩ := immutableInsert_ok (he.symm.trans h)
    exact ⟨g, launch, n, hg, hl, hv, hfit, hq, hn⟩

theorem createGroup_clean (input : NodeGroupInput) (s : Site) : Clean (createGroup input) s := by
  constructor
  · intro e he
    rcases createGroup_cases input s with hr | ⟨g, launch, -, -, -, -, hi⟩
    · rw [hr]
      rfl
    · rw [hi] at he ⊢
      exact (insertGroup_immutable g launch s).clean.refused e he
  · intro hok
    obtain ⟨g, launch, n, hg, hl, hv, hfit, hq, hn⟩ := createGroup_ok (Prod.ext rfl hok)
    -- the zone that was read before the statement is the one the repetition reads
    have hfit' : schedulingFits g (createGroup input s).1 = true := by
      simpa only [schedulingFits, insertGroup_zones hq] using hfit
    obtain ⟨m, hm⟩ := (insertGroup_immutable g launch s _ n hq).2 hn
    rw [createGroup_eq hg hl (createGroup input s).1, hv, hfit']
    simp [immutableInsert, hm]

/-- a zone whose ID is taken by another zone brings no region of its own; nothing is asked of other requests -/
def Request.quiet : Request → Site → Bool
  | .zone z, s => knownRegion (z.row .ready) s
  | _, _ => true

namespace Sample

def site : Site := ⟨⟨0, .empty, .empty, .empty, .empty, .empty, .empty, .empty, .empty, .empty, .empty, .empty, .empty⟩,
  .empty, .empty, .empty, .empty⟩

def zone : ZoneInput := { id := "z", provider := "aws", accountId := "1", region := "r", providerZoneId := "r-a" }

/-- the zone is stored -/
def stored : Site := ((Request.zone zone).run site).1

/-- the same ID in another region -/
def moved : Request := .zone { zone with region := "r2", providerZoneId := "r2-a" }

/-- the first zone of that region, under a canonical name of its own -/
def first : Request := .zone { zone with id := "z2", region := "r2", providerZoneId := "r2-b", kubernetesRegion := "west" }

end Sample

end Crane.Topology
