/-
From an accepted configuration to the seed of its first zone (`seedFirstZoneTx` of `internal/capacity/catalog.go`).

The first zone of a deployment passes `FirstZone` and `ValidateTopology` before cloud resources are made, and the checks of
five creations when it is seeded, on an empty database. The first two look at identities, ownership, resources and naming;
whether there is a capacity class and a template revision, whether Kubernetes names are label values, and whether the
scheduling metadata is valid and names the zone is only asked by the seed. A zone that has these too (`seedable`) is
seeded.
-/
import Crane.Bootstrap.Settings
import Crane.Topology.Bootstrap

namespace Crane.Bootstrap.Aws

open Checks Capacity Crane.Topology Codec

/-! ## Integers of a document -/

/-- the bounds that decoding keeps: an int64 is at most its maximum -/
def ResourcesWf (r : Resources) : Prop :=
  r.vcpu < 9223372036854775808 ∧ r.memoryMib < 9223372036854775808 ∧ r.nodes < 9223372036854775808

def GroupWf (g : NodeGroupInput) : Prop :=
  g.maxNodes < 9223372036854775808 ∧ g.vcpu < 9223372036854775808 ∧ g.memoryMib < 9223372036854775808

def FirstZoneWf (i : FirstZoneInput) : Prop := ResourcesWf i.pool.limits ∧ GroupWf i.group

section Decoding
variable {j : Json}

theorem resources_wf {old r : Resources} (hold : ResourcesWf old) (h : resources.into old j = some r) : ResourcesWf r := by
  refine record_keeps ?_ hold h
  simp only [List.forall_mem_cons, List.not_mem_nil, false_implies, implies_true, and_true]
  refine ⟨?_, ?_, ?_⟩
  · exact fun _ _ _ ha => field_keeps (fun _ _ _ h hv => ⟨int64_lt hv h.1, h.2⟩) ha
  · exact fun _ _ _ ha => field_keeps (fun _ _ _ h hv => ⟨h.1, int64_lt hv h.2.1, h.2.2⟩) ha
  · exact fun _ _ _ ha => field_keeps (fun _ _ _ h hv => ⟨h.1, h.2.1, int64_lt hv h.2.2⟩) ha

theorem poolInput_wf {old p : NodePoolInput} (hold : ResourcesWf old.limits) (h : poolInput.into old j = some p) :
    ResourcesWf p.limits := by
  refine record_keeps (P := fun p => ResourcesWf p.limits) ?_ hold h
  simp only [List.forall_mem_cons, List.not_mem_nil, false_implies, implies_true, and_true]
  constructor
  · intro a j a' ha h
    exact field_keeps (P := fun p => ResourcesWf p.limits) (by exact fun _ _ _ h _ => h) ha h
  · intro a j a' ha h
    exact field_keeps (P := fun p => ResourcesWf p.limits) (by exact fun _ _ _ h hv => resources_wf h hv) ha h

theorem groupInput_wf {old g : NodeGroupInput} (hold : GroupWf old) (h : groupInput.into old j = some g) : GroupWf g := by
  refine record_keeps ?_ hold h
  simp only [List.forall_mem_cons, List.not_mem_nil, false_implies, implies_true, and_true]
  refine ⟨?_, ?_, ?_, ?_, ?_, ?_, ?_, ?_, ?maxNodes, ?_, ?perNode, ?_, ?_⟩
  case maxNodes => exact fun _ _ _ ha => field_keeps (fun _ _ _ h hv => ⟨int64_lt hv h.1, h.2⟩) ha
  case perNode =>
    intro a j a' ha h
    refine field_keeps ?_ ha h
    intro a j v h hv
    obtain ⟨hv, hm, -⟩ := resources_wf ⟨h.2.1, h.2.2, show (0 : ℤ) < _ by decide⟩ hv
    exact ⟨h.1, hv, hm⟩
  -- no other field is one of these integers
  all_goals
    intro a j a' ha h
    refine field_keeps ?_ ha h
    exact fun _ _ _ h _ => h

theorem firstZoneInput_wf {old i : FirstZoneInput} (hold : FirstZoneWf old) (h : firstZoneInput.into old j = some i) :
    FirstZoneWf i := by
  refine record_keeps ?_ hold h
  simp only [List.forall_mem_cons, List.not_mem_nil, false_implies, implies_true, and_true]
  refine ⟨?_, ?_, ?_, ?pool, ?group⟩
  case pool => exact fun _ _ _ ha => field_keeps (fun _ _ _ h hv => ⟨poolInput_wf h.1 hv, h.2⟩) ha
  case group => exact fun _ _ _ ha => field_keeps (fun _ _ _ h hv => ⟨h.1, groupInput_wf h.2 hv⟩) ha
  all_goals
    intro a j a' ha h
    refine field_keeps ?_ ha h
    exact fun _ _ _ h _ => h

theorem decodeFirstZone_wf {cfg : Config} {i : FirstZoneInput} (h : decodeFirstZone cfg = .ok i) : FirstZoneWf i := by
  unfold decodeFirstZone at h
  split at h
  · obtain rfl := Except.ok.inj h
    simp [FirstZoneWf, ResourcesWf, GroupWf, defaultFirstZone]
  · cases h
  · split at h
    next i' hi =>
      obtain rfl := Except.ok.inj h
      exact firstZoneInput_wf ⟨⟨by decide, by decide, by decide⟩, ⟨by decide, by decide, by decide⟩⟩ hi
    next => cases h

end Decoding

/-- what the first zone of a configuration is known to have -/
structure Described (cfg : Config) (i : FirstZoneInput) : Prop where
  wf : FirstZoneWf i
  zone : i.zone.id ≠ ""
  cluster : i.cluster = ⟨i.cluster.id, "", "", cfg.platform.kubernetesVersion, cfg.platform.kubernetesVersion, "containerd",
    "cilium"⟩
  clusterId : i.cluster.id ≠ ""
  pool : i.pool.id ≠ ""
  minNodes : i.group.minNodes = 0
  maxNodes : 0 ≤ i.group.maxNodes
  perNode : 0 < i.group.vcpu ∧ 0 < i.group.memoryMib
  limits : 0 ≤ i.pool.limits.vcpu ∧ 0 ≤ i.pool.limits.memoryMib ∧ 0 ≤ i.pool.limits.nodes

theorem firstZone_described {cfg : Config} {i : FirstZoneInput} (h : firstZone cfg = .ok i) : Described cfg i := by
  simp only [firstZone, bind_ok, ensure_ok, exists_const] at h
  obtain ⟨i, hi, -, -, ⟨hzone, hcluster, hpool, hmin, hmax, hper⟩, hlimits, -, h⟩ := h
  obtain rfl := Except.ok.inj h
  have hwf : FirstZoneWf i := decodeFirstZone_wf hi
  exact ⟨hwf, hzone, rfl, hcluster, hpool, hmin, hmax, hper, hlimits⟩

/-! ## Creations in an empty database -/

section Creations
variable {s : Site}

theorem createZone_new {z : ZoneInput} (hv : z.valid = true) (l : Lifecycle) (hregions : s.regions = .empty)
    (hzones : s.db.zones = .empty) :
    createZone z l s = (Site.put { s with regions := s.regions.put ⟨z.provider, z.accountId, z.region,
      (z.row l).kubernetesRegion⟩ } (.zone (z.row l)), .ok ()) := by
  have hregion : craneZoneRegion (z.row l) s =
      .ok { s with regions := s.regions.put ⟨z.provider, z.accountId, z.region, (z.row l).kubernetesRegion⟩ } := by
    simp [craneZoneRegion, hregions, Table.find, Table.empty, ZoneInput.row]
  simp [createZone, hv, immutableInsert, insertZone, hregion, Bind.bind, Except.bind, hzones, Table.find, Table.empty,
    zoneTaken, Pure.pure, Except.pure]

theorem createCluster_new {c : ClusterInput} (hv : c.valid = true) (l : Lifecycle) (seed : Bool)
    (hclusters : s.db.clusters = .empty) :
    createCluster c l seed s = ({ s.put (.cluster ⟨c.id, c.apiServerEndpoint, c.caCertHash, l⟩) with
      software := s.software.put c.software }, .ok ()) := by
  simp [createCluster, hv, immutableInsert, insertCluster, hclusters, Table.find, Table.empty]

theorem createMembership_new {m : ClusterZoneInput} {r : ClusterZone} (hm : normalizeMembership m = some r) (seed : Bool)
    (hmembers : s.db.clusterZones = .empty) (hcluster : (s.db.clusters.find r.clusterId).isSome = true)
    (hzone : (s.db.zones.find r.zoneId).isSome = true) :
    createMembership m seed s = (s.put (.clusterZone r), .ok ()) := by
  have hfind : s.db.clusterZones.find r.key = none := by simp [hmembers, Table.find, Table.empty]
  simp [createMembership, hm, immutableInsert, insertMembership, hfind, hcluster, hzone]

theorem createPool_new {p : NodePoolInput} {row : NodePool} (hv : p.valid = true) (hrow : p.row = some row)
    (hpools : s.db.nodePools = .empty) : createPool p s = (s.put (.nodePool row), .ok ()) := by
  have hfind : s.db.nodePools.find p.id = none := by simp [hpools, Table.find, Table.empty]
  simp [createPool, hv, immutableInsert, insertPool, hrow, hfind]

theorem createGroup_new {input g : NodeGroupInput} {launch : Json} {row : NodeGroup} (hn : input.normalizeId = some g)
    (hl : input.launchParameters = some launch) (hv : g.valid = true) (hfits : schedulingFits g s = true)
    (hrow : g.row launch = some row) (hgroups : s.db.nodeGroups = .empty) (hrefs : groupReferences g s = true) :
    createGroup input s = ({ s.put (.nodeGroup row) with names := s.names.put ⟨g.id, g.naming⟩ }, .ok ()) := by
  have hfind : s.db.nodeGroups.find g.id = none := by simp [hgroups, Table.find, Table.empty]
  simp [createGroup, hn, hl, hv, hfits, immutableInsert, insertGroup, hrow, hfind, hrefs]

end Creations

/-! ## The seed -/

/-- an input all of whose parts pass their own checks and fit together -/
structure Sound (i : FirstZoneInput) : Prop where
  wf : FirstZoneWf i
  zone : i.zone.valid = true
  cluster : i.cluster.valid = true
  pool : i.pool.valid = true
  member : i.membership.clusterId = i.cluster.id ∧ i.membership.zoneId = i.zone.id
  owner : i.group.clusterId = i.cluster.id ∧ i.group.zoneId = i.zone.id ∧ i.group.nodePoolId = i.pool.id
  placed : i.group.providerZoneId = i.zone.providerZoneId ∧ i.group.naming.provider = i.zone.provider ∧
    i.group.naming.region = i.zone.region
  normalized : i.group.normalizeId = some i.group
  group : i.group.valid = true
  minNodes : i.group.minNodes = 0
  launch : i.group.launchParameters.isSome = true
  scheduling : validateScheduling i.group.scheduling i.group.nodePoolId = true
  names : i.group.scheduling.region = (i.zone.row .ready).kubernetesRegion ∧
    i.group.scheduling.zone = (i.zone.row .ready).kubernetesZone

theorem Sound.poolRow {i : FirstZoneInput} (h : Sound i) : ∃ row, i.pool.row = some row ∧ row.id = i.pool.id := by
  obtain ⟨hv, hm, hn⟩ := h.wf.1
  have hvalid := h.pool
  simp only [NodePoolInput.valid, Bool.and_eq_true, decide_eq_true_eq] at hvalid
  have hcheck : NonNeg64 i.pool.limits.vcpu ∧ NonNeg64 i.pool.limits.memoryMib ∧ NonNeg64 i.pool.limits.nodes := by
    unfold NonNeg64 maxInt64
    omega
  exact ⟨_, dif_pos hcheck, rfl⟩

theorem Sound.groupRow {i : FirstZoneInput} (h : Sound i) (launch : Json) : ∃ row, i.group.row launch = some row := by
  obtain ⟨hmax, hv, hm⟩ := h.wf.2
  have hvalid := h.group
  simp only [NodeGroupInput.valid, Bool.and_eq_true, decide_eq_true_eq] at hvalid
  have hmin := h.minNodes
  have hcheck : 0 ≤ i.group.minNodes ∧ (i.group.minNodes ≤ 0 ∧ 0 ≤ i.group.maxNodes) ∧ i.group.maxNodes ≤ maxInt64 ∧
      Pos64 i.group.vcpu ∧ Pos64 i.group.memoryMib := by
    unfold Pos64 maxInt64
    omega
  exact ⟨_, dif_pos hcheck⟩

theorem Sound.consistent {i : FirstZoneInput} (h : Sound i) : i.consistent = true := by
  simp [FirstZoneInput.consistent, h.normalized, h.member, h.owner, h.minNodes]

theorem Sound.membership {i : FirstZoneInput} (h : Sound i) (ready : Bool) :
    ∃ r, normalizeMembership (i.member ready) = some r ∧ r.clusterId = i.cluster.id ∧ r.zoneId = i.zone.id := by
  have hz := h.zone
  have hc := h.cluster
  simp only [ZoneInput.valid, ClusterInput.valid, Bool.and_eq_true, decide_eq_true_eq] at hz hc
  cases ready with
  | true => exact ⟨_, by simp [normalizeMembership, FirstZoneInput.member, lifecycleOf, accessOf, h.member, hz, hc]; rfl, rfl, rfl⟩
  | false => exact ⟨_, by simp [normalizeMembership, FirstZoneInput.member, lifecycleOf, accessOf, h.member, hz, hc]; rfl, rfl, rfl⟩

/-- a sound input is seeded into an empty database -/
theorem Sound.seeded {i : FirstZoneInput} (h : Sound i) (ready : Bool) (clock : ℕ) (hosts : Table Host.id) :
    ∃ s, seedFirstZoneTx i ready (empty clock hosts) = .ok s := by
  obtain ⟨m, hm, hmc, hmz⟩ := h.membership ready
  obtain ⟨pool, hpool, hpid⟩ := h.poolRow
  obtain ⟨launch, hlaunch⟩ := Option.isSome_iff_exists.mp h.launch
  obtain ⟨row, hrow⟩ := h.groupRow launch
  refine ⟨_, seedFirstZoneTx_ok.mpr ⟨h.consistent, _, _, _, _, createZone_new h.zone _ rfl rfl,
    createCluster_new h.cluster _ _ rfl, createMembership_new hm _ rfl ?_ ?_, createPool_new h.pool hpool rfl,
    createGroup_new h.normalized hlaunch h.group ?_ hrow rfl ?_⟩⟩
  · simp [Site.put, DB.put, hmc]
  · simp [Site.put, DB.put, hmz, ZoneInput.row]
  · have hscheduling : validateScheduling i.group.scheduling i.pool.id = true := h.owner.2.2 ▸ h.scheduling
    simp [schedulingFits, Site.put, DB.put, h.owner, hscheduling, h.names, ZoneInput.row]
  · simp [groupReferences, Site.put, DB.put, Table.find_put, h.owner, h.placed, hpid, ClusterZone.key, hmc, hmz,
      ZoneInput.row]

/-! ## First zones on AWS -/

/-- what the seed asks for and no earlier check does -/
def seedable (i : FirstZoneInput) : Bool :=
  i.group.capacityClass ≠ "" && i.group.templateRevision ≠ "" &&
    isValidLabelValue (i.zone.row .ready).kubernetesRegion && isValidLabelValue (i.zone.row .ready).kubernetesZone &&
    validateScheduling i.group.scheduling i.group.nodePoolId &&
    i.group.scheduling.region = (i.zone.row .ready).kubernetesRegion &&
    i.group.scheduling.zone = (i.zone.row .ready).kubernetesZone

theorem validateTopology_ok {i : FirstZoneInput} (h : validateTopology i = .ok ()) :
    (i.zone.provider ≠ "" ∧ i.zone.accountId ≠ "" ∧ i.zone.region ≠ "" ∧ i.zone.providerZoneId ≠ "") ∧
      (i.membership.clusterId = i.cluster.id ∧ i.membership.zoneId = i.zone.id ∧ i.group.zoneId = i.zone.id ∧
        i.group.clusterId = i.cluster.id ∧ i.group.nodePoolId = i.pool.id ∧
        i.group.providerZoneId = i.zone.providerZoneId) ∧
      (i.group.naming.provider = i.zone.provider ∧ i.group.naming.region = i.zone.region) ∧
      i.group.launchParameters.isSome = true := by
  simp only [validateTopology, bind_ok, ensure_ok, exists_const] at h
  obtain ⟨hzone, howner, ⟨-, hnaming⟩, hlaunch⟩ := h
  exact ⟨hzone, howner, hnaming, hlaunch⟩

theorem normalizeId_some {g g' : NodeGroupInput} (h : g.normalizeId = some g') :
    ∃ id, formatNodeGroupId g.naming = some id ∧ g' = { g with id := id } := by
  obtain ⟨id, hid, h⟩ := Option.bind_eq_some_iff.mp h
  split_ifs at h
  exact ⟨id, hid, (Option.some.inj h).symm⟩

/-- a normalized group is normalized -/
theorem normalizeId_self {g : NodeGroupInput} (h : formatNodeGroupId g.naming = some g.id) : g.normalizeId = some g := by
  simp [NodeGroupInput.normalizeId, h]

section Topologies
variable {c : BootstrapConfig} {infra : Infrastructure} {i : FirstZoneInput}

/-- a topology under an account is sound if it is seedable -/
theorem topology_sound (hversion : c.platform.kubernetesVersion ≠ "") (haccount : c.aws.accountId ≠ "")
    (h : topology c infra = .ok i) (hseed : seedable i = true) : Sound i := by
  obtain ⟨az, i₀, g, launch, subnet, hloc, rfl⟩ := topology_ok.mp h
  obtain ⟨⟨hprovider, hacc, hregion, hplace⟩, ⟨hmc, hmz, hgz, hgc, hgp, hpz⟩, ⟨hnp, hnr⟩, hl⟩ :=
    validateTopology_ok (hloc.valid haccount)
  have hdesc := firstZone_described hloc.read
  obtain ⟨id, hid, rfl⟩ := normalizeId_some hloc.normalized
  simp only [seedable, Bool.and_eq_true, decide_eq_true_eq] at hseed
  obtain ⟨⟨⟨⟨⟨⟨hclass, hrevision⟩, hkr⟩, hkz⟩, hsched⟩, hsr⟩, hsz⟩ := hseed
  constructor
  · exact hdesc.wf
  · simp only [ZoneInput.valid, Bool.and_eq_true, decide_eq_true_eq]
    exact ⟨⟨⟨⟨⟨⟨hdesc.zone, hprovider⟩, hacc⟩, hregion⟩, hplace⟩, hkr⟩, hkz⟩
  · show i₀.cluster.valid = true
    rw [hdesc.cluster]
    simp [ClusterInput.valid, hdesc.clusterId, sharedConfig, hversion]
  · simp only [NodePoolInput.valid, Bool.and_eq_true, decide_eq_true_eq]
    exact ⟨⟨⟨hdesc.pool, hdesc.limits.1⟩, hdesc.limits.2.1⟩, hdesc.limits.2.2⟩
  · exact ⟨hmc, hmz⟩
  · exact ⟨hgc, hgz, hgp⟩
  · exact ⟨hpz, hnp, hnr⟩
  · exact normalizeId_self hid
  · have hmin := hdesc.minNodes
    have hmax := hdesc.maxNodes
    simp only [NodeGroupInput.valid, Bool.and_eq_true, decide_eq_true_eq]
    refine ⟨⟨⟨⟨⟨⟨⟨⟨hgc ▸ hdesc.clusterId, hgz ▸ hdesc.zone⟩, hgp ▸ hdesc.pool⟩, hclass⟩, hrevision⟩, ?_⟩, ?_⟩, hdesc.perNode.1⟩,
      hdesc.perNode.2⟩
    · exact hmin.ge
    · exact hmin.trans_le hmax
  · exact hdesc.minNodes
  · exact hl
  · exact hsched
  · exact ⟨hsr, hsz⟩

end Topologies

namespace Sample

/-- a first zone, with or without a template revision -/
def zoneWith (revision : List (String × Json)) : Json := .obj [
  ("zone", .obj [("id", .str "z")]), ("cluster", .obj [("id", .str "c")]),
  ("pool", .obj [("id", .str "p"), ("limits", .obj [("vcpu", .num 8), ("memory_mib", .num 16384), ("nodes", .num 4)])]),
  ("group", .obj ([
    ("naming", .obj [("provider", .str "aws"), ("development_stage", .str "dev"), ("group", .str "platform")]),
    ("max_nodes", .num 4), ("capacity_class", .str "on-demand"),
    ("per_node", .obj [("vcpu", .num 2), ("memory_mib", .num 4096)])] ++ revision))]

def sharedWith (zone : RawMessage) : Config where
  version := 3
  developmentStage := "dev"
  groupSuffix := "platform"
  provider := "aws"
  providerConfig := .doc (.obj [("region", .str "us-east-1")])
  firstZone := zone

/-- the AWS configuration of a session -/
def sessionWith (zone : RawMessage) (instanceType : String) : BootstrapConfig :=
  composeBootstrapConfig (sharedWith zone).withDefaults
    { region := "us-east-1", platformHost := { instanceType := instanceType } }

def discovered : Infrastructure := ⟨["us-east-1a", "us-east-1b"], ["subnet-1", "subnet-2"], "workers", "sg-1"⟩

/-- the answer of the seed to the topology of a session -/
def seedAnswer (c : BootstrapConfig) : Except String (Except Err Unit) :=
  (topology (c.withDefaults.withAccount "123456789012") discovered).map fun i =>
    (seedFirstZone i false (empty 0 .empty)).2

/-- the same first zone with a template revision, placed -/
def revised : FirstZoneInput :=
  match topology ((sessionWith (.doc (zoneWith [("template_revision", .str "v1")])) "").withDefaults.withAccount
    "123456789012") discovered with
  | .ok i => i
  | .error _ => noFirstZone

end Sample

end Crane.Bootstrap.Aws
